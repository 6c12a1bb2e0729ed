/-
# What a manual clock shows

A manual clock keeps a word of seconds and shows a time of the calendar.  What it shows after
any moves is told here by the calendar alone: go from the instant that it was last set to,
second by second, as many seconds on or back as it was advanced since.

* **Second by second.**  `DateTime.nextSecond?` rolls over minutes, hours, days, months and
  years, with the day that follows a day (`Date.next?`) and no count of days.  So many seconds
  later is what the count of seconds says (`DateTime.isAfter_iff`).
* **The order** of times by year, month, day, hour, minute and second is that of the count
  (`DateTime.fields_lt_iff`).
* **The word** wraps around, the calendar fills only a small part of it.  A sum that leaves the
  calendar, or goes once around the word, is kept all the same (`Clock.moveAll_eq`), and only a
  sum that is back within reach denotes an instant again (`Clock.toInt_seconds_eq_iff`).

`Clock.now_moveAll` is the whole of it.
-/
import Mathlib.Algebra.GroupWithZero.Nat
import Mathlib.Algebra.Ring.Int.Defs
import Mathlib.Data.List.Induction
import IrrigationLog.Proofs.CalendarCount

namespace IrrigationLog

/-! ## 1. The following second -/

namespace TimeOfDay

/-- The start of the following second, if the day is not over by then. -/
def nextSecond? (t : TimeOfDay) : Option TimeOfDay :=
  (ofParts? t.hour t.minute (t.second + 1) 0).or <|
    (ofParts? t.hour (t.minute + 1) 0 0).or (ofParts? (t.hour + 1) 0 0 0)

/-- **What the following second is**: one second later on the same day, or, after the last
second of the day, none. -/
theorem nextSecond?_cases (t : TimeOfDay) :
    (∃ u, t.nextSecond? = some u ∧ u.seconds = t.seconds + 1 ∧ u.nanosecond = 0) ∨
      (t.nextSecond? = none ∧ t.seconds + 1 = 86400) := by
  have hhour := t.hour_lt
  have hminute := t.minute_lt
  have hsecond := t.second_lt
  unfold nextSecond? ofParts? seconds
  by_cases hs : t.second + 1 < 60
  · rw [dif_pos ⟨hhour, hminute, hs, by decide⟩]
    exact Or.inl ⟨_, rfl, by dsimp only; omega, rfl⟩
  · rw [dif_neg fun h => hs h.2.2.1]
    by_cases hm : t.minute + 1 < 60
    · rw [dif_pos ⟨hhour, hm, by decide, by decide⟩]
      exact Or.inl ⟨_, rfl, by dsimp only; omega, rfl⟩
    · rw [dif_neg fun h => hm h.2.1]
      by_cases hh : t.hour + 1 < 24
      · rw [dif_pos ⟨hh, by decide, by decide, by decide⟩]
        exact Or.inl ⟨_, rfl, by dsimp only; omega, rfl⟩
      · rw [dif_neg fun h => hh h.1]
        exact Or.inr ⟨rfl, by omega⟩

end TimeOfDay

namespace DateTime

variable {s t u : DateTime}

/-- The start of the following second, if the calendar is not over by then. -/
def nextSecond? (t : DateTime) : Option DateTime :=
  match t.time.nextSecond? with
  | some time => some ⟨t.date, time⟩
  | none => t.date.next?.map fun date => ⟨date, .midnight⟩

/-- **The following second is one second later.** -/
theorem of_nextSecond? (h : t.nextSecond? = some u) :
    u.epochSeconds = t.epochSeconds + 1 ∧ u.time.nanosecond = 0 := by
  unfold nextSecond? at h
  unfold epochSeconds
  rcases t.time.nextSecond?_cases with ⟨time, htime, hseconds, hnano⟩ | ⟨hnone, hlast⟩
  · rw [htime] at h
    cases h
    refine ⟨?_, hnano⟩
    dsimp only
    omega
  · rw [hnone] at h
    obtain ⟨date, hdate, rfl⟩ := Option.map_eq_some_iff.mp h
    have hday := Date.dayNumber_of_next? hdate
    have hmidnight : TimeOfDay.midnight.seconds = 0 := rfl
    refine ⟨?_, rfl⟩
    dsimp only
    omega

/-- **Only the last second of the calendar has no following second.** -/
theorem epochSeconds_le_of_nextSecond?_eq_none (h : t.nextSecond? = none) (u : DateTime) :
    u.epochSeconds ≤ t.epochSeconds := by
  unfold nextSecond? at h
  rcases t.time.nextSecond?_cases with ⟨time, htime, -⟩ | ⟨hnone, hlast⟩
  · rw [htime] at h
    cases h
  · rw [hnone] at h
    have hday : u.date.dayNumber ≤ t.date.dayNumber :=
      Date.le_of_next?_eq_none (Option.map_eq_none_iff.mp h) u.date
    have hseconds := u.time.seconds_lt
    unfold epochSeconds
    omega

/-- The time so many seconds later, second by second. -/
def secondsLater? : Nat → DateTime → Option DateTime
  | 0, t => some t
  | n + 1, t => t.nextSecond?.bind (secondsLater? n)

theorem secondsLater?_eq_some_iff {n : Nat} (hs : s.time.nanosecond = 0)
    (ht : t.time.nanosecond = 0) :
    s.secondsLater? n = some t ↔ t.epochSeconds = s.epochSeconds + n := by
  induction n generalizing s with
  | zero =>
    rw [secondsLater?, Option.some.injEq, ← epochSeconds_eq_iff hs ht]
    omega
  | succ n ih =>
    rw [secondsLater?]
    cases hnext : s.nextSecond? with
    | none =>
      have hlast := epochSeconds_le_of_nextSecond?_eq_none hnext t
      constructor
      · intro h
        cases h
      · intro h
        omega
    | some u =>
      obtain ⟨hlater, hu⟩ := of_nextSecond? hnext
      rw [Option.bind_some, ih hu, hlater]
      omega

/-- A time comes so many seconds after another, or before it if the number is negative. -/
def IsAfter (s : DateTime) : Int → DateTime → Prop
  | .ofNat n, t => s.secondsLater? n = some t
  | .negSucc n, t => t.secondsLater? (n + 1) = some s

/-- **Going second by second is what the count of seconds says.** -/
theorem isAfter_iff {n : Int} (hs : s.time.nanosecond = 0) (ht : t.time.nanosecond = 0) :
    s.IsAfter n t ↔ t.epochSeconds = s.epochSeconds + n := by
  cases n with
  | ofNat n => exact secondsLater?_eq_some_iff hs ht
  | negSucc n =>
    have hback : s.IsAfter (.negSucc n) t ↔ s.epochSeconds = t.epochSeconds + (n + 1 : Nat) :=
      secondsLater?_eq_some_iff ht hs
    rw [hback, Int.negSucc_eq]
    omega

end DateTime

/-! ## 2. The order of times -/

/-- **Dates are ordered by year, month and day.** -/
theorem Date.lt_iff {d e : Date} :
    d < e ↔ d.year < e.year ∨
      d.year = e.year ∧ (d.month < e.month ∨ d.month = e.month ∧ d.day < e.day) := by
  rw [← not_le]
  rcases Int.lt_trichotomy d.year e.year with hlt | heq | hgt
  · have hnot : ¬e ≤ d := fun h => by
      have := year_le_of_le h
      omega
    simp [hnot, hlt]
  · rw [le_iff_of_year_eq heq.symm]
    omega
  · have hle : e ≤ d := by
      rcases le_total e d with h | h
      · exact h
      · have := year_le_of_le h
        omega
    simp only [hle, not_true_eq_false, false_iff]
    omega

namespace DateTime

/-- Year, month, day, hour, minute and second. -/
def fields (t : DateTime) : List Int :=
  [t.date.year, t.date.month, t.date.day, t.time.hour, t.time.minute, t.time.second]

/-- **A time is earlier by its calendar fields exactly when it is by its seconds.** -/
theorem fields_lt_iff {s t : DateTime} : s.fields < t.fields ↔ s.epochSeconds < t.epochSeconds := by
  have hdate := Date.lt_iff (d := s.date) (e := t.date)
  have hs := And.intro s.time.minute_lt s.time.second_lt
  have ht := And.intro t.time.minute_lt t.time.second_lt
  have hsday := s.time.seconds_lt
  have htday := t.time.seconds_lt
  simp only [fields, List.cons_lt_cons_iff, List.lt_irrefl, and_false, or_false]
  rcases lt_trichotomy s.date t.date with hlt | heq | hgt
  · have hearlier : s.date.dayNumber < t.date.dayNumber := hlt
    have hfields := hdate.mp hlt
    unfold epochSeconds
    omega
  · rw [heq]
    unfold epochSeconds TimeOfDay.seconds
    rw [heq]
    omega
  · have hlater : t.date.dayNumber < s.date.dayNumber := hgt
    have hfields := (Date.lt_iff (d := t.date) (e := s.date)).mp hgt
    unfold epochSeconds
    omega

end DateTime

/-! ## 3. Moves of a clock -/

namespace Clock

/-- What is done to a manual clock. -/
inductive Move where
  | set (at_ : DateTime)
  | advance (by_ : Int64)

namespace Move

/-- The instant that a move sets the clock to. -/
def instant? : Move → Option DateTime
  | set at_ => some at_
  | advance _ => none

/-- The seconds by which a move advances the clock. -/
def seconds : Move → Int
  | set _ => 0
  | advance by_ => by_.toInt

end Move

/-- The clock after a move. -/
def move (c : Clock) : Move → Clock
  | .set at_ => setTo at_
  | .advance by_ => c.advance by_

/-- The clock after some moves, in order. -/
def moveAll (c : Clock) (moves : List Move) : Clock := moves.foldl move c

/-- The instant that a clock was last set to, the first one if the moves set none. -/
def lastSet (start : DateTime) (moves : List Move) : DateTime :=
  (moves.filterMap Move.instant?).getLast?.getD start

/-- The sum of the advances since the clock was last set. -/
def advancedSince (moves : List Move) : Int :=
  ((moves.reverse.takeWhile fun m => m.instant?.isNone).map Move.seconds).sum

variable {start : DateTime} {moves : List Move}

theorem moveAll_append (c : Clock) (moves : List Move) (m : Move) :
    c.moveAll (moves ++ [m]) = (c.moveAll moves).move m := by
  simp [moveAll]

@[simp]
theorem lastSet_set (start at_ : DateTime) (moves : List Move) :
    lastSet start (moves ++ [.set at_]) = at_ := by
  simp [lastSet, Move.instant?]

@[simp]
theorem lastSet_advance (start : DateTime) (moves : List Move) (by_ : Int64) :
    lastSet start (moves ++ [.advance by_]) = lastSet start moves := by
  simp [lastSet, Move.instant?]

@[simp]
theorem advancedSince_set (moves : List Move) (at_ : DateTime) :
    advancedSince (moves ++ [.set at_]) = 0 := by
  simp [advancedSince, Move.instant?]

@[simp]
theorem advancedSince_advance (moves : List Move) (by_ : Int64) :
    advancedSince (moves ++ [.advance by_]) = advancedSince moves + by_.toInt := by
  simp [advancedSince, Move.instant?, Move.seconds, Int.add_comm]

/-- **The word of a clock** is that of the instant last set and the sum of the advances since. -/
theorem moveAll_eq (start : DateTime) (moves : List Move) :
    (setTo start).moveAll moves =
      ⟨.ofInt ((lastSet start moves).epochSeconds + advancedSince moves)⟩ := by
  induction moves using List.reverseRecOn with
  | nil =>
    simp [moveAll, lastSet, advancedSince, setTo]
  | append_singleton moves m ih =>
    rw [moveAll_append, ih]
    cases m with
    | set at_ => simp [move, setTo]
    | advance by_ =>
      have hsum (k : Int) : Int64.ofInt (k + by_.toInt) = .ofInt k + by_ := by
        rw [Int64.ofInt_add, Int64.ofInt_toInt]
      rw [lastSet_advance, advancedSince_advance, ← Int.add_assoc, hsum]
      rfl

/-- The last instant set is on a whole second if all are. -/
theorem nanosecond_lastSet (hstart : start.time.nanosecond = 0)
    (hmoves : ∀ at_, .set at_ ∈ moves → at_.time.nanosecond = 0) :
    (lastSet start moves).time.nanosecond = 0 := by
  unfold lastSet
  cases hlast : (moves.filterMap Move.instant?).getLast? with
  | none => exact hstart
  | some at_ =>
    obtain ⟨m, hm, hset⟩ := List.mem_filterMap.mp (List.mem_of_getLast? hlast)
    cases m with
    | set other =>
      cases hset
      exact hmoves at_ hm
    | advance by_ => cases hset

/-! ## 4. What the word denotes -/

/-- Times fill only a small part of a word. -/
theorem epochSeconds_bounds (t : DateTime) :
    -432000086400 < t.epochSeconds ∧ t.epochSeconds < 432000086400 := by
  have hday := t.date.dayNumber_bounds
  have hseconds := t.time.seconds_lt
  unfold DateTime.epochSeconds
  omega

/-- **A word denotes a time** exactly when the time is so many seconds after the instant last
set as the advances since amount to, modulo the size of a word. -/
theorem toInt_seconds_eq_iff (s t : DateTime) (n : Int) :
    (Int64.ofInt (s.epochSeconds + n)).toInt = t.epochSeconds ↔
      t.epochSeconds = s.epochSeconds + n.bmod (2 ^ 64) := by
  have hs := epochSeconds_bounds s
  have ht := epochSeconds_bounds t
  have hsize : ((2 ^ 64 : Nat) : Int) = 18446744073709551616 := rfl
  have hlow := Int.le_bmod (x := n) (m := 2 ^ 64) (by decide)
  have hhigh := Int.bmod_lt (x := n) (m := 2 ^ 64) (by decide)
  have hword : (Int64.ofInt (s.epochSeconds + n)).toInt =
      (s.epochSeconds + n.bmod (2 ^ 64)).bmod (2 ^ 64) := by
    rw [Int.add_bmod_bmod]
    exact Int64.toInt_ofInt
  rw [hword, Int.bmod_def]
  generalize n.bmod (2 ^ 64) = k at hlow hhigh ⊢
  rw [hsize] at hlow hhigh ⊢
  -- the sum of an instant and a signed word leaves the range of a word by less than a calendar
  split
  · omega
  · omega

/-- Words of one instant and of equal sums, modulo the size of a word, are equal. -/
theorem ofInt_add_congr {e m n : Int} (h : m.bmod (2 ^ 64) = n.bmod (2 ^ 64)) :
    Int64.ofInt (e + m) = .ofInt (e + n) := by
  rw [← Int64.toInt_inj, Int64.toInt_ofInt, Int64.toInt_ofInt]
  exact Int.add_bmod_eq_add_bmod_left e h

/-- **What a manual clock shows**: the time that comes so many seconds after the instant last
set as the advances since amount to, and the first instant of the count where the calendar has
none. -/
theorem now_moveAll {start : DateTime} {moves : List Move} (hstart : start.time.nanosecond = 0)
    (hmoves : ∀ at_, .set at_ ∈ moves → at_.time.nanosecond = 0) :
    -- nothing else than the instant last set and the sum of the advances since counts
    (∀ other others, lastSet other others = lastSet start moves →
      (advancedSince others).bmod (2 ^ 64) = (advancedSince moves).bmod (2 ^ 64) →
        ((setTo other).moveAll others).now = ((setTo start).moveAll moves).now) ∧
    (∀ t, t.time.nanosecond = 0 →
      (lastSet start moves).IsAfter ((advancedSince moves).bmod (2 ^ 64)) t →
        ((setTo start).moveAll moves).now = t) ∧
    ((∀ t, t.time.nanosecond = 0 →
      ¬(lastSet start moves).IsAfter ((advancedSince moves).bmod (2 ^ 64)) t) →
        ((setTo start).moveAll moves).now = .epoch) ∧
    (setTo start).now = start ∧
    (∀ at_, at_.time.nanosecond = 0 → (((setTo start).moveAll moves).move (.set at_)).now = at_) ∧
    ∀ s t : DateTime, (s.fields < t.fields ↔ s.epochSeconds < t.epochSeconds) ∧
      (setTo t).seconds.toInt = t.epochSeconds := by
  have hlast := nanosecond_lastSet hstart hmoves
  have hword := moveAll_eq start moves
  have hnow : ((setTo start).moveAll moves).now = (DateTime.ofEpochSeconds?
      (Int64.ofInt ((lastSet start moves).epochSeconds + advancedSince moves)).toInt).getD
        .epoch := by
    rw [hword]
    rfl
  refine ⟨?_, ?_, ?_, now_setTo hstart, fun at_ hat => now_setTo hat,
    fun s t => ⟨DateTime.fields_lt_iff, t.toInt_ofInt_epochSeconds⟩⟩
  · intro other others hset hsum
    rw [hword, moveAll_eq, hset, ofInt_add_congr hsum]
  · intro t ht hafter
    rw [hnow, (toInt_seconds_eq_iff _ t _).mpr ((DateTime.isAfter_iff hlast ht).mp hafter),
      DateTime.ofEpochSeconds?_epochSeconds ht, Option.getD_some]
  · intro hnone
    cases hfound : DateTime.ofEpochSeconds?
        (Int64.ofInt ((lastSet start moves).epochSeconds + advancedSince moves)).toInt with
    | none => rw [hnow, hfound, Option.getD_none]
    | some t =>
      obtain ⟨hseconds, ht⟩ := DateTime.of_ofEpochSeconds? hfound
      have hsum := (toInt_seconds_eq_iff _ t _).mp hseconds.symm
      exact absurd ((DateTime.isAfter_iff hlast ht).mpr hsum) (hnone t ht)

/-- The last second but one of the calendar. -/
def lastButOne : DateTime := (DateTime.ofOrdinalParts? 9999 365 23 59 58 0).getD .epoch

/-- The last second of the calendar. -/
def lastOfAll : DateTime := (DateTime.ofOrdinalParts? 9999 365 23 59 59 0).getD .epoch

/-- Around the word and beyond the calendar: a clock set to the last second but one and advanced
twice by as much as a word holds and by three seconds stands one second later; three seconds
after the last but one it shows the first instant, and three seconds back the last but one. -/
theorem now_moveAll_of_fullRound :
    ((setTo .epoch).moveAll [.advance 5, .set lastButOne, .advance Int64.maxValue,
        .advance Int64.maxValue, .advance 3]).now = lastOfAll ∧
      ((setTo lastButOne).moveAll [.advance 3]).now = .epoch ∧
      ((setTo lastButOne).moveAll [.advance 3, .advance (-3)]).now = lastButOne := by
  have hset : ∀ at_, Move.set at_ ∈ [Move.advance 5, .set lastButOne, .advance Int64.maxValue,
      .advance Int64.maxValue, .advance 3] → at_.time.nanosecond = 0 := by
    intro at_ h
    simp at h
    rw [h]
    rfl
  have hnone : ∀ moves : List Int64, ∀ at_, Move.set at_ ∈ moves.map .advance →
      at_.time.nanosecond = 0 := by
    intro moves at_ h
    simp at h
  refine ⟨?_, ?_, ?_⟩
  · exact (now_moveAll rfl hset).2.1 lastOfAll rfl rfl
  · refine (now_moveAll rfl (hnone [3])).2.2.1 ?_
    intro t _ h
    have hend : lastButOne.secondsLater? 3 = none := rfl
    exact absurd (hend.symm.trans h) nofun
  · exact (now_moveAll rfl (hnone [3, -3])).2.1 lastButOne rfl rfl

end Clock

end IrrigationLog
