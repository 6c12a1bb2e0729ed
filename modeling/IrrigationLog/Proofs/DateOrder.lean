/-
# The order of the calendar

Dates are ordered by their day numbers, but a partition keeps no day numbers: it has the year
in its name and the month, or the day alone, in its lines.  A scan therefore compares months
and days.  This module proves that the two orders are one.

* **Within a year** the order of dates is the lexicographic order of month and day
  (`Date.le_iff_of_year_eq`).
* **Across years** a smaller year comes first (`Date.year_le_of_le`), because the days of a
  year end before the next year starts (`yearStart_succ`).
* **All dates** stand in one linear order.
* **A query range** lies in one year, and its two tests on month and day are the two
  comparisons of dates (`DayRange.hasStarted_iff`, `DayRange.isPastEnd_iff`).
-/
import Mathlib.Order.Defs.LinearOrder
import IrrigationLog.Query.Range

namespace IrrigationLog

/-! ## 1. Days of a year -/

/-- The months before the next one are those before a month, and it. -/
theorem daysBeforeMonth_succ (year : Int) {m : Nat} (hm : 1 ≤ m) :
    daysBeforeMonth year (m + 1) = daysBeforeMonth year m + daysInMonth year m := by
  obtain ⟨k, rfl⟩ : ∃ k, m = k + 1 := ⟨m - 1, by omega⟩
  rfl

/-- Every month of a year has a day. -/
theorem one_le_daysInMonth (year : Int) {month : Nat} (h : 1 ≤ month ∧ month ≤ 12) :
    1 ≤ daysInMonth year month := by
  unfold daysInMonth
  split
  case h_12 => split <;> omega
  case h_13 =>
    -- no other number is left
    simp only [imp_false] at *
    omega
  all_goals omega

/-- A month has at most 31 days. -/
theorem daysInMonth_le (year : Int) (month : Nat) : daysInMonth year month ≤ 31 := by
  unfold daysInMonth
  split <;> first | omega | (split <;> omega)

/-- The months before a later month hold at least the days up to the end of an earlier one. -/
theorem daysBeforeMonth_add_daysInMonth_le (year : Int) {m n : Nat} (hm : 1 ≤ m) (h : m < n) :
    daysBeforeMonth year m + daysInMonth year m ≤ daysBeforeMonth year n := by
  induction n with
  | zero => omega
  | succ n ih =>
    rw [daysBeforeMonth_succ year (by omega : 1 ≤ n)]
    rcases Nat.lt_or_ge m n with hlt | hge
    · have := ih hlt
      omega
    · obtain rfl : m = n := by omega
      exact Nat.le_refl _

/-- A year is as long as its twelve months. -/
theorem daysBeforeMonth_thirteen (year : Int) :
    daysBeforeMonth year 13 = if isLeapYear year then 366 else 365 := by
  simp only [daysBeforeMonth, daysInMonth]
  split <;> rfl

/-- A year starts when the one before it is over. -/
theorem yearStart_succ (year : Int) :
    yearStart (year + 1) = yearStart year + daysBeforeMonth year 13 := by
  rw [daysBeforeMonth_thirteen]
  have hsub : year + 1 - 1 = year := by omega
  unfold yearStart isLeapYear
  rw [hsub]
  split
  · rename_i hleap
    simp only [Bool.and_eq_true, Bool.or_eq_true, decide_eq_true_eq] at hleap
    omega
  · rename_i hcommon
    simp only [Bool.and_eq_true, Bool.or_eq_true, decide_eq_true_eq] at hcommon
    omega

/-- Later years start later. -/
theorem yearStart_le {y z : Int} (h : y ≤ z) : yearStart y ≤ yearStart z := by
  unfold yearStart
  omega

namespace Date

/-- The number of a day in its year is positive. -/
theorem one_le_ordinal (d : Date) : 1 ≤ d.ordinal := by
  have := d.day_bounds
  unfold ordinal
  omega

/-- The number of a day in its year is at most the number of the days of the year. -/
theorem ordinal_le (d : Date) : d.ordinal ≤ daysBeforeMonth d.year 13 := by
  have hm := d.month_bounds
  have hd := d.day_bounds
  have := daysBeforeMonth_add_daysInMonth_le d.year hm.1 (show d.month < 13 by omega)
  unfold ordinal
  omega

/-- A year has at most 366 days. -/
theorem ordinal_le_366 (d : Date) : d.ordinal ≤ 366 := by
  have hle := d.ordinal_le
  rw [daysBeforeMonth_thirteen] at hle
  split at hle <;> omega

/-- In one year a day of an earlier month has a smaller number. -/
theorem ordinal_lt_of_month_lt {d e : Date} (hy : d.year = e.year) (h : d.month < e.month) :
    d.ordinal < e.ordinal := by
  have hd := d.day_bounds
  have he := e.day_bounds
  have := daysBeforeMonth_add_daysInMonth_le d.year d.month_bounds.1 h
  unfold ordinal
  rw [← hy]
  omega

/-- Ten thousand years before and after the first one have fewer than five million days each. -/
theorem dayNumber_bounds (d : Date) : -5000000 < d.dayNumber ∧ d.dayNumber < 5000000 := by
  have hy := d.year_bounds
  have hlo := d.one_le_ordinal
  have hhi := d.ordinal_le_366
  unfold dayNumber yearStart
  omega

/-! ## 2. Two dates -/

/-- In one year the order is that of the numbers in the year. -/
theorem le_iff_ordinal_le {d e : Date} (hy : d.year = e.year) : d ≤ e ↔ d.ordinal ≤ e.ordinal := by
  show d.dayNumber ≤ e.dayNumber ↔ _
  unfold dayNumber
  rw [hy]
  omega

/-- **Within a year dates are ordered by month and day.** -/
theorem le_iff_of_year_eq {d e : Date} (hy : d.year = e.year) :
    d ≤ e ↔ d.month < e.month ∨ d.month = e.month ∧ d.day ≤ e.day := by
  rw [le_iff_ordinal_le hy]
  rcases Nat.lt_trichotomy d.month e.month with hlt | heq | hgt
  · have := ordinal_lt_of_month_lt hy hlt
    omega
  · unfold ordinal
    rw [hy, heq]
    omega
  · have := ordinal_lt_of_month_lt hy.symm hgt
    omega

/-- **Across years the smaller year comes first.** -/
theorem year_le_of_le {d e : Date} (h : d ≤ e) : d.year ≤ e.year := by
  refine Int.not_lt.mp fun hlt => ?_
  have hle : yearStart (e.year + 1) ≤ yearStart d.year := yearStart_le (by omega)
  have hnext := yearStart_succ e.year
  have hd := d.one_le_ordinal
  have he := e.ordinal_le
  have hnum : d.dayNumber ≤ e.dayNumber := h
  unfold dayNumber at hnum
  omega

theorem le_refl (d : Date) : d ≤ d := Int.le_refl d.dayNumber

theorem le_trans {d e f : Date} (h : d ≤ e) (h' : e ≤ f) : d ≤ f := Int.le_trans h h'

theorem le_total (d e : Date) : d ≤ e ∨ e ≤ d := Int.le_total d.dayNumber e.dayNumber

/-- Two dates that come no later than each other are one. -/
theorem le_antisymm {d e : Date} (h : d ≤ e) (h' : e ≤ d) : d = e := by
  have hy : d.year = e.year := Int.le_antisymm (year_le_of_le h) (year_le_of_le h')
  rw [le_iff_of_year_eq hy] at h
  rw [le_iff_of_year_eq hy.symm] at h'
  have hm : d.month = e.month := by omega
  have hd : d.day = e.day := by omega
  cases d
  cases e
  simp only at hy hm hd
  subst hy hm hd
  rfl

instance : LinearOrder Date where
  le_refl := Date.le_refl
  le_trans := fun _ _ _ => Date.le_trans
  le_antisymm := fun _ _ => Date.le_antisymm
  le_total := Date.le_total
  lt_iff_le_not_ge := fun d e => by
    show d.dayNumber < e.dayNumber ↔ d.dayNumber ≤ e.dayNumber ∧ ¬ e.dayNumber ≤ d.dayNumber
    omega
  toDecidableLE := inferInstance
  toDecidableEq := inferInstance
  toDecidableLT := inferInstance

/-! ## 3. Neighbouring dates -/

/-- **What the following day is**: of the same month, the first of the next month, the first of
the next year, or, after the last day of all, none. -/
theorem next?_cases (d : Date) :
    (∃ e, d.next? = some e ∧ e.year = d.year ∧ e.month = d.month ∧ e.day = d.day + 1) ∨
    (d.day = daysInMonth d.year d.month ∧
      ∃ e, d.next? = some e ∧ e.year = d.year ∧ e.month = d.month + 1 ∧ e.day = 1) ∨
    (d.month = 12 ∧ d.day = 31 ∧
      ∃ e, d.next? = some e ∧ e.year = d.year + 1 ∧ e.month = 1 ∧ e.day = 1) ∨
    d.year = 9999 ∧ d.month = 12 ∧ d.day = 31 ∧ d.next? = none := by
  have hyear := d.year_bounds
  have hmonth := d.month_bounds
  have hday := d.day_bounds
  unfold next?
  cases hsame : ofYmd? d.year d.month (d.day + 1) with
  | some e => exact Or.inl ⟨e, rfl, eq_of_ofYmd? hsame⟩
  | none =>
    have hlast : d.day = daysInMonth d.year d.month := by
      have hno := not_of_ofYmd?_eq_none hsame
      omega
    cases hnext : ofYmd? d.year (d.month + 1) 1 with
    | some e => exact Or.inr (Or.inl ⟨hlast, e, rfl, eq_of_ofYmd? hnext⟩)
    | none =>
      have hdecember : d.month = 12 := by
        have hno := not_of_ofYmd?_eq_none hnext
        refine Decidable.byContradiction fun hne => hno ⟨hyear, by omega, Nat.le_refl 1, ?_⟩
        exact one_le_daysInMonth d.year (by omega)
      have h31 : d.day = 31 := by
        rw [hlast, hdecember]
        rfl
      cases hnew : ofYmd? (d.year + 1) 1 1 with
      | some e => exact Or.inr (Or.inr (Or.inl ⟨hdecember, h31, e, rfl, eq_of_ofYmd? hnew⟩))
      | none =>
        have hno := not_of_ofYmd?_eq_none hnew
        have hend : d.year = 9999 := by
          refine Decidable.byContradiction fun hne => hno ⟨by omega, by decide, Nat.le_refl 1, ?_⟩
          exact one_le_daysInMonth _ (by decide)
        exact Or.inr (Or.inr (Or.inr ⟨hend, hdecember, h31, rfl⟩))

/-- **The following day is one day later.** -/
theorem dayNumber_of_next? {d e : Date} (h : d.next? = some e) :
    e.dayNumber = d.dayNumber + 1 := by
  rcases d.next?_cases with ⟨f, hf, hy, hm, hd⟩ | ⟨hlast, f, hf, hy, hm, hd⟩ |
    ⟨hdecember, h31, f, hf, hy, hm, hd⟩ | ⟨-, -, -, hnone⟩
  · obtain rfl : e = f := Option.some.inj (h.symm.trans hf)
    unfold dayNumber ordinal
    rw [hy, hm, hd]
    omega
  · obtain rfl : e = f := Option.some.inj (h.symm.trans hf)
    unfold dayNumber ordinal
    rw [hy, hm, hd, daysBeforeMonth_succ d.year d.month_bounds.1]
    omega
  · obtain rfl : e = f := Option.some.inj (h.symm.trans hf)
    have hnext := yearStart_succ d.year
    have hyear := daysBeforeMonth_succ d.year (show 1 ≤ 12 by decide)
    unfold dayNumber ordinal
    rw [hy, hm, hd, hdecember, h31, hnext, hyear]
    simp only [daysBeforeMonth, daysInMonth]
    omega
  · rw [h] at hnone
    cases hnone

/-- The following day is later. -/
theorem le_of_next? {d e : Date} (h : d.next? = some e) : d ≤ e := by
  have hnumber := dayNumber_of_next? h
  show d.dayNumber ≤ e.dayNumber
  omega

/-- **Only the last day of the calendar has no following day.** -/
theorem le_of_next?_eq_none {d : Date} (h : d.next? = none) (e : Date) : e ≤ d := by
  rcases d.next?_cases with ⟨f, hf, -⟩ | ⟨-, f, hf, -⟩ | ⟨-, -, f, hf, -⟩ |
    ⟨hyear, hmonth, hday, -⟩
  · rw [h] at hf
    cases hf
  · rw [h] at hf
    cases hf
  · rw [h] at hf
    cases hf
  · rcases le_total e d with hle | hge
    · exact hle
    · have hy := year_le_of_le hge
      have hbounds := e.year_bounds
      have hsame : e.year = d.year := by omega
      have hm := e.month_bounds
      have hd := e.day_bounds
      have hlong := daysInMonth_le e.year e.month
      rw [le_iff_of_year_eq hsame]
      omega

/-- The last day of a year is no earlier than any other. -/
theorem le_yearEnd (d : Date) : d ≤ d.yearEnd := by
  rw [le_iff_of_year_eq (show d.year = d.yearEnd.year from rfl)]
  have hm := d.month_bounds
  have hd := d.day_bounds
  show d.month < 12 ∨ d.month = 12 ∧ d.day ≤ 31
  rcases Nat.lt_or_ge d.month 12 with hlt | hge
  · exact Or.inl hlt
  · have h12 : d.month = 12 := by omega
    rw [h12] at hd
    exact Or.inr ⟨h12, hd.2⟩

/-- Every month of a year has a first day. -/
theorem exists_of_month (d : Date) {month : Nat} (h : 1 ≤ month ∧ month ≤ 12) :
    ∃ e : Date, e.year = d.year ∧ e.month = month ∧ e.day = 1 :=
  ⟨⟨d.year, month, 1, d.year_bounds, h, Nat.le_refl 1, one_le_daysInMonth d.year h⟩,
    rfl, rfl, rfl⟩

theorem le_later_left (d e : Date) : d ≤ later d e := by
  unfold later
  split
  · assumption
  · exact le_refl d

end Date

/-! ## 4. Query ranges -/

namespace DayRange

/-- A range starts where it was asked to start. -/
@[simp]
theorem start_spanning (from_ to_ : Date) : (spanning from_ to_).start = from_ := by
  unfold spanning
  dsimp only
  split <;> rfl

/-- A range ends in the year in which it starts. -/
theorem year_finish_spanning (from_ to_ : Date) :
    (spanning from_ to_).finish.year = from_.year := by
  unfold spanning
  dsimp only
  split
  · assumption
  · rfl

/-- A range holds its start. -/
theorem start_le_finish_spanning (from_ to_ : Date) : from_ ≤ (spanning from_ to_).finish := by
  have hlater : from_ ≤ (from_.later to_).next?.getD (from_.later to_) := by
    cases hn : (from_.later to_).next? with
    | none => exact Date.le_later_left from_ to_
    | some e => exact Date.le_trans (Date.le_later_left from_ to_) (Date.le_of_next? hn)
  unfold spanning
  dsimp only
  split
  · exact hlater
  · exact Date.le_yearEnd from_

/-- A range starts and ends in one year. -/
def InYear (r : DayRange) (year : Int) : Prop := r.start.year = year ∧ r.finish.year = year

/-- The range of a query lies in the year of its start. -/
theorem inYear_spanning (from_ to_ : Date) : (spanning from_ to_).InYear from_.year :=
  ⟨by rw [start_spanning], year_finish_spanning from_ to_⟩

/-- The range of a query lies in its year. -/
theorem inYear_year_spanning (from_ to_ : Date) :
    (spanning from_ to_).InYear (spanning from_ to_).year := by
  have hstart : (spanning from_ to_).year = from_.year := by rw [year, start_spanning]
  rw [hstart]
  exact inYear_spanning from_ to_

/-- The days that a range covers. -/
def covers (r : DayRange) (d : Date) : Bool := r.start ≤ d && d ≤ r.finish

variable {r : DayRange} {d : Date}

/-- A covered day has come and is not past. -/
theorem covers_iff : r.covers d = true ↔ r.start ≤ d ∧ d ≤ r.finish := by
  simp [covers]

/-- A covered day lies in the year of the range. -/
theorem InYear.year_eq {year : Int} (h : r.InYear year) (hd : r.covers d = true) :
    d.year = year := by
  obtain ⟨hstart, hfinish⟩ := covers_iff.mp hd
  have h1 := Date.year_le_of_le hstart
  have h2 := Date.year_le_of_le hfinish
  have := h.1
  have := h.2
  omega

/-- **The test for the start is the comparison of dates.** -/
theorem hasStarted_iff (h : r.InYear d.year) :
    r.hasStarted d.month d.day = decide (r.start ≤ d) := by
  rw [Bool.eq_iff_iff, decide_eq_true_iff, Date.le_iff_of_year_eq h.1]
  simp only [hasStarted, Bool.or_eq_true, Bool.and_eq_true, decide_eq_true_eq, beq_iff_eq]
  omega

/-- **The test for the end is the comparison of dates.** -/
theorem isPastEnd_iff (h : r.InYear d.year) :
    r.isPastEnd d.month d.day = !decide (d ≤ r.finish) := by
  rw [Bool.eq_iff_iff, Bool.not_eq_true', decide_eq_false_iff_not,
    Date.le_iff_of_year_eq h.2.symm]
  simp only [isPastEnd, Bool.or_eq_true, Bool.and_eq_true, decide_eq_true_eq, beq_iff_eq]
  omega

/-! ## 5. The months of a range -/

/-- The months of a range come one after the other. -/
theorem pairwise_months (r : DayRange) : r.months.Pairwise (· < ·) := by
  unfold months
  rw [List.pairwise_map]
  exact List.pairwise_lt_range.imp fun h => Nat.add_lt_add_left h _

/-- The months of a range are those from the month of its start to the month of its end. -/
theorem mem_months {month : Nat} :
    month ∈ r.months ↔ r.start.month ≤ month ∧ month ≤ r.finish.month := by
  unfold months
  rw [List.mem_map]
  constructor
  · rintro ⟨k, hk, rfl⟩
    rw [List.mem_range] at hk
    omega
  · rintro ⟨hstart, hfinish⟩
    refine ⟨month - r.start.month, ?_, by omega⟩
    rw [List.mem_range]
    omega

/-- A month of a range exists. -/
theorem month_bounds_of_mem {month : Nat} (h : month ∈ r.months) : 1 ≤ month ∧ month ≤ 12 := by
  obtain ⟨hstart, hfinish⟩ := mem_months.mp h
  have hfirst := r.start.month_bounds
  have hlast := r.finish.month_bounds
  omega

/-- A covered day falls into one of the months of the range. -/
theorem month_bounds_of_covers {year : Int} (h : r.InYear year) (hd : r.covers d = true) :
    r.start.month ≤ d.month ∧ d.month ≤ r.finish.month := by
  have hy := h.year_eq hd
  obtain ⟨hfrom, hto⟩ := covers_iff.mp hd
  have hstart := (Date.le_iff_of_year_eq (h.1.trans hy.symm)).mp hfrom
  have hfinish := (Date.le_iff_of_year_eq (hy.trans h.2.symm)).mp hto
  omega

end DayRange

end IrrigationLog
