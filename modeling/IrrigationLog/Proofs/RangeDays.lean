/-
# The days of a query range

A query is asked for two dates, in either order, and answers for a range.  This module says which
days that are, for any two dates of the calendar.

* **The end** asked for is the later date, and the day after it is answered for too
  (`Date.dayAfter`); after the last day of the calendar there is none to be added.
* **One year.**  The range stops at the end of the year in which it starts
  (`DayRange.finish_spanning`), and remembers it if that left anything out
  (`DayRange.truncated_spanning`).
* **Months and days.**  A partition is looked into if its month has a day of the range
  (`DayRange.mem_months_iff`), and a line is taken if its month and day pass two tests
  (`DayRange.covers_iff_tests`).

`DayRange.days_of_spanning` is the whole of it.
-/
import Mathlib.Order.Lattice
import IrrigationLog.Proofs.DateOrder

namespace IrrigationLog

/-! ## 1. The later date and the day after -/

namespace Date

/-- The later of two dates is the greater one. -/
theorem later_eq_max (d e : Date) : d.later e = max d e := by
  unfold later
  rw [max_def]

/-- The day after a date, or the date itself if it is the last one of the calendar. -/
def dayAfter (d : Date) : Date := d.next?.getD d

/-- **The day after** has the next number, if there is a date with that number. -/
theorem dayAfter_cases (d : Date) :
    d.dayAfter.dayNumber = d.dayNumber + 1 ∨ d.dayAfter = d ∧ ∀ e : Date, e ≤ d := by
  unfold dayAfter
  cases hnext : d.next? with
  | some e => exact Or.inl (dayNumber_of_next? hnext)
  | none => exact Or.inr ⟨rfl, le_of_next?_eq_none hnext⟩

/-- The day after a date is no earlier. -/
theorem le_dayAfter (d : Date) : d ≤ d.dayAfter := by
  rcases d.dayAfter_cases with hnumber | ⟨hsame, -⟩
  · show d.dayNumber ≤ d.dayAfter.dayNumber
    omega
  · rw [hsame]

/-- The ends of the years of two dates in one year are one day. -/
theorem yearEnd_eq_of_year_eq {d e : Date} (h : d.year = e.year) : d.yearEnd = e.yearEnd := by
  simp only [yearEnd, h]

/-- A date of a later year comes after the end of the year. -/
theorem yearEnd_le_of_year_lt {d e : Date} (h : d.year < e.year) : d.yearEnd ≤ e := by
  rcases Date.le_total d.yearEnd e with hle | hge
  · exact hle
  · have hyear : e.year ≤ d.yearEnd.year := year_le_of_le hge
    change e.year ≤ d.year at hyear
    omega

end Date

namespace DayRange

/-! ## 2. The end of a range -/

/-- The day after the later of two dates is no earlier than either of them. -/
theorem le_extended (from_ to_ : Date) : from_ ≤ (max from_ to_).dayAfter :=
  Date.le_trans (le_max_left from_ to_) (Date.le_dayAfter _)

/-- **A range ends** on the day after the later date, or with the year if that comes first. -/
theorem finish_spanning (from_ to_ : Date) :
    (spanning from_ to_).finish = min from_.yearEnd (max from_ to_).dayAfter := by
  have hyears : from_.year ≤ (max from_ to_).dayAfter.year :=
    Date.year_le_of_le (le_extended from_ to_)
  unfold spanning
  dsimp only
  rw [Date.later_eq_max]
  change (if (max from_ to_).dayAfter.year = from_.year then _ else _ : DayRange).finish = _
  split
  · rename_i hsame
    rw [← Date.yearEnd_eq_of_year_eq hsame]
    exact (min_eq_right (Date.le_yearEnd _)).symm
  · rename_i hother
    exact (min_eq_left (Date.yearEnd_le_of_year_lt (by omega))).symm

/-- **A range is cut off** if the day after the later date falls into a later year. -/
theorem truncated_spanning (from_ to_ : Date) :
    (spanning from_ to_).truncated = true ↔ from_.year < (max from_ to_).dayAfter.year := by
  have hyears : from_.year ≤ (max from_ to_).dayAfter.year :=
    Date.year_le_of_le (le_extended from_ to_)
  unfold spanning
  dsimp only
  rw [Date.later_eq_max]
  change (if (max from_ to_).dayAfter.year = from_.year then _ else _ : DayRange).truncated = _ ↔ _
  split
  · rename_i hsame
    simp [hsame]
  · rename_i hother
    simp only [true_iff]
    omega

/-! ## 3. Months and days -/

variable {r : DayRange} {year : Int}

/-- **The tests of a scan** are passed by the covered days of the year, and by no others. -/
theorem covers_iff_tests (h : r.InYear year) (d : Date) :
    r.start ≤ d ∧ d ≤ r.finish ↔
      d.year = year ∧ r.hasStarted d.month d.day = true ∧ r.isPastEnd d.month d.day = false := by
  constructor
  · rintro ⟨hstart, hfinish⟩
    have hyear : d.year = year := h.year_eq (covers_iff.mpr ⟨hstart, hfinish⟩)
    rw [hasStarted_iff (hyear ▸ h), isPastEnd_iff (hyear ▸ h)]
    simp [hyear, hstart, hfinish]
  · rintro ⟨hyear, hstarted, hpast⟩
    rw [hasStarted_iff (hyear ▸ h)] at hstarted
    rw [isPastEnd_iff (hyear ▸ h)] at hpast
    simpa using And.intro hstarted hpast

/-- **The months of a range** are those that have a day of it.  The first month has the start; any
later one has its first day. -/
theorem mem_months_iff (h : r.InYear year) (hle : r.start ≤ r.finish) {month : Nat} :
    month ∈ r.months ↔ ∃ d : Date, r.start ≤ d ∧ d ≤ r.finish ∧ d.month = month := by
  rw [mem_months]
  constructor
  · rintro ⟨hfirst, hlast⟩
    rcases Nat.eq_or_lt_of_le hfirst with rfl | hlater
    · exact ⟨r.start, Date.le_refl _, hle, rfl⟩
    · have hbounds := r.start.month_bounds
      have hend := r.finish.month_bounds
      obtain ⟨d, hyear, hmonth, hday⟩ := r.start.exists_of_month
        (show 1 ≤ month ∧ month ≤ 12 by omega)
      have hfinish := r.finish.day_bounds
      refine ⟨d, ?_, ?_, hmonth⟩
      · rw [Date.le_iff_of_year_eq hyear.symm]
        omega
      · rw [Date.le_iff_of_year_eq (hyear.trans (h.1.trans h.2.symm))]
        omega
  · rintro ⟨d, hstart, hfinish, rfl⟩
    exact month_bounds_of_covers h (covers_iff.mpr ⟨hstart, hfinish⟩)

/-! ## 4. All of it -/

/-- **The days of a query range**, for any two dates.  It starts on the first one, and ends on the
day after the later one or on the last day of the year of its start, whichever comes first; it is
cut off exactly if the day after falls into a later year.  Its months are those of its days, in
order, and its days are those of the year that pass the two tests of a scan. -/
theorem days_of_spanning (from_ to_ : Date) :
    let r := spanning from_ to_
    ∃ extended : Date,
      (extended.dayNumber = (max from_ to_).dayNumber + 1 ∨
        extended = max from_ to_ ∧ ∀ d : Date, d ≤ max from_ to_) ∧
      r.start = from_ ∧
      r.finish = min from_.yearEnd extended ∧
      r.start ≤ r.finish ∧ r.finish.year = r.start.year ∧
      (r.truncated = true ↔ from_.year < extended.year) ∧
      r.months.Pairwise (· < ·) ∧
      (∀ month, month ∈ r.months ↔
        ∃ d : Date, r.start ≤ d ∧ d ≤ r.finish ∧ d.month = month) ∧
      (∀ d : Date, r.start ≤ d ∧ d ≤ r.finish ↔
        d.year = r.year ∧ r.hasStarted d.month d.day = true ∧
          r.isPastEnd d.month d.day = false) := by
  intro r
  have hstart : r.start = from_ := start_spanning from_ to_
  have hyear : r.InYear r.year := inYear_year_spanning from_ to_
  have hle : r.start ≤ r.finish := by
    rw [hstart]
    exact start_le_finish_spanning from_ to_
  refine ⟨(max from_ to_).dayAfter, (max from_ to_).dayAfter_cases, hstart,
    finish_spanning from_ to_, hle, hyear.2, truncated_spanning from_ to_, pairwise_months r,
    ?_, ?_⟩
  · intro month
    exact mem_months_iff hyear hle
  · intro d
    exact covers_iff_tests hyear d

/-- New Year's Eve cuts a range off, except for the last one of the calendar. -/
example :
    ((Date.ofYmd? 2024 12 31).map fun d => (spanning d d).truncated) = some true ∧
      ((Date.ofYmd? 9999 12 31).map fun d => (spanning d d).truncated) = some false := by
  decide

end DayRange

end IrrigationLog
