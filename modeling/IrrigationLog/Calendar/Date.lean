/-
# Dates

A date of the proleptic Gregorian calendar in the years -9999 to 9999.  A value of type
`Date` is a day that exists: the bounds of month and day are part of the type, so 30 February
cannot be written down.

Days are counted from 1 January 1970, which has number zero; the count is the order of the
calendar and gives the weekday.  The number of a day in its year runs from 1.

* `Date.ofYmd?`, `Date.ofOrdinal?`, `Date.ofDayNumber?` build a date, if there is one;
* `Date.dayNumber`, `Date.ordinal`, `Date.weekday` read it;
* `Date.next?` is the following day, absent after 31 December 9999.
-/

namespace IrrigationLog

/-! ## 1. Years and months -/

/-- A year divisible by four has a leap day, except for the centuries not divisible by 400. -/
def isLeapYear (year : Int) : Bool := year % 4 = 0 && (year % 100 ≠ 0 || year % 400 = 0)

/-- The number of days of a month; 0 for a month that does not exist. -/
def daysInMonth (year : Int) : Nat → Nat
  | 1 | 3 | 5 | 7 | 8 | 10 | 12 => 31
  | 4 | 6 | 9 | 11 => 30
  | 2 => if isLeapYear year then 29 else 28
  | _ => 0

/-- The days of a year before the first of a month. -/
def daysBeforeMonth (year : Int) : Nat → Nat
  | 0 => 0
  | 1 => 0
  | m + 1 => daysBeforeMonth year m + daysInMonth year m

/-- The number of the first day of a year, counted from 1 January 1970.  Up to a year `y`
there are `y / 4 - y / 100 + y / 400` leap days, 477 of them before 1970. -/
def yearStart (year : Int) : Int :=
  365 * (year - 1970) + ((year - 1) / 4 - (year - 1) / 100 + (year - 1) / 400) - 477

/-! ## 2. Dates -/

/-- A day of the calendar. -/
structure Date where
  year : Int
  month : Nat
  day : Nat
  year_bounds : -9999 ≤ year ∧ year ≤ 9999
  month_bounds : 1 ≤ month ∧ month ≤ 12
  day_bounds : 1 ≤ day ∧ day ≤ daysInMonth year month
  deriving DecidableEq

namespace Date

/-- The first day of the count. -/
def epoch : Date := ⟨1970, 1, 1, by decide, by decide, by decide⟩

instance : Inhabited Date := ⟨epoch⟩

/-- The date with the given parts, if it exists. -/
def ofYmd? (year : Int) (month day : Nat) : Option Date :=
  if h : (-9999 ≤ year ∧ year ≤ 9999) ∧ (1 ≤ month ∧ month ≤ 12) ∧
      (1 ≤ day ∧ day ≤ daysInMonth year month) then
    some ⟨year, month, day, h.1, h.2.1, h.2.2⟩
  else none

/-- The number of the day in its year; 1 January has number 1. -/
def ordinal (d : Date) : Nat := daysBeforeMonth d.year d.month + d.day

/-- The number of days since 1 January 1970. -/
def dayNumber (d : Date) : Int := yearStart d.year + (d.ordinal : Int) - 1

/-- The weekday, counted from Sunday as 0; 1 January 1970 was a Thursday. -/
def weekday (d : Date) : Fin 7 := Fin.ofNat 7 ((d.dayNumber + 4) % 7).toNat

/-- The month and day with a number in the year, looking through the given months. -/
def monthAndDay? (year : Int) : List Nat → Nat → Option (Nat × Nat)
  | [], _ => none
  | m :: months, n =>
    if n ≤ daysInMonth year m then some (m, n)
    else monthAndDay? year months (n - daysInMonth year m)

/-- The date with a number in its year, if it exists. -/
def ofOrdinal? (year : Int) (n : Nat) : Option Date :=
  (monthAndDay? year [1, 2, 3, 4, 5, 6, 7, 8, 9, 10, 11, 12] n).bind fun (m, d) =>
    ofYmd? year m d

/-- The year in which the day with a number falls.  An average year has 146097 / 400 days, and
the year found with that average is never more than one off. -/
def yearOfDayNumber (n : Int) : Int :=
  let y := 1970 + n * 400 / 146097
  if n < yearStart y then y - 1 else if yearStart (y + 1) ≤ n then y + 1 else y

/-- The date with a number in the count, if it lies in the calendar. -/
def ofDayNumber? (n : Int) : Option Date :=
  let y := yearOfDayNumber n
  ofOrdinal? y (n - yearStart y + 1).toNat

/-! ## 3. Order -/

instance : LE Date := ⟨fun a b => a.dayNumber ≤ b.dayNumber⟩
instance : LT Date := ⟨fun a b => a.dayNumber < b.dayNumber⟩
instance (a b : Date) : Decidable (a ≤ b) :=
  inferInstanceAs (Decidable (a.dayNumber ≤ b.dayNumber))
instance (a b : Date) : Decidable (a < b) :=
  inferInstanceAs (Decidable (a.dayNumber < b.dayNumber))

/-- The later of two dates. -/
def later (a b : Date) : Date := if a ≤ b then b else a

/-- The following day. -/
def next? (d : Date) : Option Date :=
  (ofYmd? d.year d.month (d.day + 1)).or <|
    (ofYmd? d.year (d.month + 1) 1).or (ofYmd? (d.year + 1) 1 1)

/-- The last day of December of the same year. -/
def yearEnd (d : Date) : Date :=
  ⟨d.year, 12, 31, d.year_bounds, by decide, by simp [daysInMonth]⟩

/-- The first day of the same month. -/
def monthStart (d : Date) : Date :=
  ⟨d.year, d.month, 1, d.year_bounds, d.month_bounds, by have := d.day_bounds; omega⟩

/-- Each date is found by its parts. -/
@[simp]
theorem ofYmd?_self (d : Date) : ofYmd? d.year d.month d.day = some d := by
  rw [ofYmd?, dif_pos ⟨d.year_bounds, d.month_bounds, d.day_bounds⟩]

/-- A date found by its parts has them. -/
theorem eq_of_ofYmd? {y : Int} {m n : Nat} {d : Date} (h : ofYmd? y m n = some d) :
    d.year = y ∧ d.month = m ∧ d.day = n := by
  unfold ofYmd? at h
  split at h
  · cases h; exact ⟨rfl, rfl, rfl⟩
  · cases h

/-- A date has the parts from which it was made, and no others. -/
theorem ofYmd?_eq_some_iff {y : Int} {m n : Nat} {d : Date} :
    ofYmd? y m n = some d ↔ d.year = y ∧ d.month = m ∧ d.day = n := by
  constructor
  · exact eq_of_ofYmd?
  · intro h
    obtain ⟨rfl, rfl, rfl⟩ := h
    exact ofYmd?_self d

/-- Parts that name no date are out of bounds. -/
theorem not_of_ofYmd?_eq_none {y : Int} {m n : Nat} (h : ofYmd? y m n = none) :
    ¬ ((-9999 ≤ y ∧ y ≤ 9999) ∧ (1 ≤ m ∧ m ≤ 12) ∧ (1 ≤ n ∧ n ≤ daysInMonth y m)) := by
  unfold ofYmd? at h
  split at h
  · cases h
  · assumption

end Date

end IrrigationLog
