/-
# Counting days and seconds

A day is found again by its number in the year and by its number in the count, and an instant
on a whole second by its seconds.  So nothing is lost where a time is put into one of these
forms: in the numbered form of a settings file, or in the word of a manual clock.  And what is
found by a number has this number (`Date.of_ofOrdinal?`, `DateTime.of_ofEpochSeconds?`).

* **Within a year** the months are gone through until the number falls into one
  (`Date.ofOrdinal?_ordinal`).
* **Across years** the year guessed from the average length of a year is at most one off, and
  is put right (`yearOfDayNumber_eq`, `Date.ofDayNumber?_dayNumber`).
* **A manual clock** shows the instant that it was set to (`Clock.now_setTo`), fractions of a
  second cut off.
-/
import IrrigationLog.Calendar.Written
import IrrigationLog.Clock
import IrrigationLog.Proofs.DateOrder

namespace IrrigationLog

/-! ## 1. Days -/

/-- The months from one on, up to the month of a day. -/
theorem Date.monthAndDay?_range' (year : Int) {m day : Nat}
    (hday : 1 ≤ day ∧ day ≤ daysInMonth year m) (len : Nat) {s : Nat} (hs : 1 ≤ s) (hsm : s ≤ m)
    (hm : m < s + len) {n : Nat} (hn : daysBeforeMonth year s + n = daysBeforeMonth year m + day) :
    monthAndDay? year (List.range' s len) n = some (m, day) := by
  induction len generalizing s n with
  | zero => omega
  | succ len ih =>
    rw [List.range'_succ, monthAndDay?]
    rcases Nat.eq_or_lt_of_le hsm with rfl | hlt
    · obtain rfl : n = day := by omega
      rw [if_pos hday.2]
    · have hover := daysBeforeMonth_add_daysInMonth_le year hs hlt
      have hnext := daysBeforeMonth_succ year hs
      rw [if_neg (by omega)]
      exact ih (s := s + 1) (by omega) hlt (by omega) (by omega)

/-- **A day is found by its number in the year.** -/
theorem Date.ofOrdinal?_ordinal (d : Date) : ofOrdinal? d.year d.ordinal = some d := by
  have hm := d.month_bounds
  have hfound : monthAndDay? d.year [1, 2, 3, 4, 5, 6, 7, 8, 9, 10, 11, 12] d.ordinal =
      some (d.month, d.day) :=
    monthAndDay?_range' d.year d.day_bounds 12 (Nat.le_refl 1) hm.1 (by omega)
      (Nat.zero_add d.ordinal)
  rw [ofOrdinal?, hfound, Option.bind_some]
  exact ofYmd?_self d

/-- **The year of a day is found**: the guess is one of three years. -/
theorem Date.yearOfDayNumber_eq {y n : Int} (hlow : yearStart y ≤ n)
    (hhigh : n < yearStart (y + 1)) : yearOfDayNumber n = y := by
  have hguess : y - 1 ≤ 1970 + n * 400 / 146097 ∧ 1970 + n * 400 / 146097 ≤ y + 1 := by
    unfold yearStart at hlow hhigh
    omega
  unfold yearOfDayNumber
  dsimp only
  generalize 1970 + n * 400 / 146097 = guess at hguess ⊢
  obtain rfl | rfl | rfl : guess = y - 1 ∨ guess = y ∨ guess = y + 1 := by omega
  · have hle : yearStart (y - 1) ≤ yearStart y := yearStart_le (by omega)
    rw [if_neg (by omega), Int.sub_add_cancel, if_pos hlow]
  · rw [if_neg (by omega), if_neg (by omega)]
  · rw [if_pos hhigh]
    omega

/-- **A day is found by its number in the count.** -/
theorem Date.ofDayNumber?_dayNumber (d : Date) : ofDayNumber? d.dayNumber = some d := by
  have hlow := d.one_le_ordinal
  have hhigh := d.ordinal_le
  have hnext := yearStart_succ d.year
  have hyear : yearOfDayNumber d.dayNumber = d.year := by
    refine yearOfDayNumber_eq ?_ ?_
    · unfold dayNumber
      omega
    · unfold dayNumber
      omega
  have hordinal : (d.dayNumber - yearStart d.year + 1).toNat = d.ordinal := by
    unfold dayNumber
    omega
  unfold ofDayNumber?
  dsimp only
  rw [hyear, hordinal]
  exact ofOrdinal?_ordinal d

/-- A month and day found by a number are that many days into the year. -/
theorem Date.of_monthAndDay? {year : Int} (len : Nat) {s : Nat} (hs : 1 ≤ s) {n m day : Nat}
    (h : monthAndDay? year (List.range' s len) n = some (m, day)) :
    daysBeforeMonth year m + day = daysBeforeMonth year s + n := by
  induction len generalizing s n with
  | zero => cases h
  | succ len ih =>
    rw [List.range'_succ, monthAndDay?] at h
    split at h
    · cases h
      rfl
    · have hnext := daysBeforeMonth_succ year hs
      have hlater := ih (s := s + 1) (by omega) h
      omega

/-- **A day found by a number in the year has that number.** -/
theorem Date.of_ofOrdinal? {year : Int} {n : Nat} {d : Date} (h : ofOrdinal? year n = some d) :
    d.year = year ∧ d.ordinal = n := by
  obtain ⟨⟨m, day⟩, hfound, hd⟩ := Option.bind_eq_some_iff.mp h
  obtain ⟨hyear, hmonth, hday⟩ := eq_of_ofYmd? hd
  have hcount : daysBeforeMonth year m + day = 0 + n :=
    of_monthAndDay? 12 (Nat.le_refl 1) hfound
  refine ⟨hyear, ?_⟩
  unfold ordinal
  rw [hyear, hmonth, hday]
  omega

/-- **A day found by a number in the count has that number.** -/
theorem Date.dayNumber_of_ofDayNumber? {n : Int} {d : Date} (h : ofDayNumber? n = some d) :
    d.dayNumber = n := by
  obtain ⟨hyear, hordinal⟩ := of_ofOrdinal? h
  have hpos := d.one_le_ordinal
  unfold dayNumber
  rw [hyear]
  omega

/-! ## 2. Seconds -/

theorem TimeOfDay.seconds_lt (t : TimeOfDay) : t.seconds < 86400 := by
  have hhour := t.hour_lt
  have hminute := t.minute_lt
  have hsecond := t.second_lt
  unfold seconds
  omega

/-- A time of day on a whole second is found by its seconds since midnight. -/
theorem TimeOfDay.ofSeconds_seconds {t : TimeOfDay} (h : t.nanosecond = 0) :
    ofSeconds t.seconds = t := by
  obtain ⟨hour, minute, second, nanosecond, hhour, hminute, hsecond, hnano⟩ := t
  obtain rfl : nanosecond = 0 := h
  unfold ofSeconds seconds
  dsimp only
  congr 1
  · omega
  · omega
  · omega

/-- **An instant on a whole second is found by its seconds.** -/
theorem DateTime.ofEpochSeconds?_epochSeconds {t : DateTime} (h : t.time.nanosecond = 0) :
    ofEpochSeconds? t.epochSeconds = some t := by
  have hseconds := t.time.seconds_lt
  have hday : t.epochSeconds / 86400 = t.date.dayNumber := by
    unfold epochSeconds
    omega
  have htime : (t.epochSeconds % 86400).toNat = t.time.seconds := by
    unfold epochSeconds
    omega
  unfold ofEpochSeconds?
  rw [hday, htime, Date.ofDayNumber?_dayNumber, Option.map_some, TimeOfDay.ofSeconds_seconds h]

/-- A time of day found by its seconds has that many. -/
theorem TimeOfDay.seconds_ofSeconds {n : Nat} (h : n < 86400) : (ofSeconds n).seconds = n := by
  unfold ofSeconds seconds
  dsimp only
  omega

/-- **An instant found by its seconds has that many**, and is on a whole second. -/
theorem DateTime.of_ofEpochSeconds? {n : Int} {t : DateTime} (h : ofEpochSeconds? n = some t) :
    t.epochSeconds = n ∧ t.time.nanosecond = 0 := by
  obtain ⟨d, hd, rfl⟩ := Option.map_eq_some_iff.mp h
  have hday := Date.dayNumber_of_ofDayNumber? hd
  have htime : (TimeOfDay.ofSeconds (n % 86400).toNat).seconds = (n % 86400).toNat :=
    TimeOfDay.seconds_ofSeconds (by omega)
  refine ⟨?_, rfl⟩
  unfold epochSeconds
  dsimp only
  omega

/-- Two times on a whole second are told apart by their seconds. -/
theorem DateTime.epochSeconds_eq_iff {s t : DateTime} (hs : s.time.nanosecond = 0)
    (ht : t.time.nanosecond = 0) : s.epochSeconds = t.epochSeconds ↔ s = t := by
  constructor
  · intro h
    have hfound := ofEpochSeconds?_epochSeconds hs
    rw [h, ofEpochSeconds?_epochSeconds ht] at hfound
    exact (Option.some.inj hfound).symm
  · intro h
    rw [h]

/-- A time has a number of seconds that fits into a word. -/
theorem DateTime.toInt_ofInt_epochSeconds (t : DateTime) :
    (Int64.ofInt t.epochSeconds).toInt = t.epochSeconds := by
  have hday := t.date.dayNumber_bounds
  have hseconds := t.time.seconds_lt
  refine Int64.toInt_ofInt_of_le ?_ ?_
  · unfold epochSeconds
    omega
  · unfold epochSeconds
    omega

/-- **A clock shows the instant that it was set to.** -/
theorem Clock.now_setTo {t : DateTime} (h : t.time.nanosecond = 0) : (setTo t).now = t := by
  unfold now setTo
  dsimp only
  rw [t.toInt_ofInt_epochSeconds, DateTime.ofEpochSeconds?_epochSeconds h, Option.getD_some]

/-! ## 3. The numbered form -/

/-- **A time is found by its numbered form.** -/
theorem DateTime.ofOrdinalParts?_self (t : DateTime) :
    ofOrdinalParts? t.date.year t.date.ordinal t.time.hour t.time.minute t.time.second
      t.time.nanosecond = some t := by
  have htime : TimeOfDay.ofParts? t.time.hour t.time.minute t.time.second t.time.nanosecond =
      some t.time :=
    TimeOfDay.ofParts?_eq_some_iff.mpr ⟨rfl, rfl, rfl, rfl⟩
  rw [ofOrdinalParts?, Date.ofOrdinal?_ordinal, htime]
  rfl

end IrrigationLog
