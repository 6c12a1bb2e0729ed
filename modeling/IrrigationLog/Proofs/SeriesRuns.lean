/-
# Summaries against runs of readings

A summary holds one bucket at a time and closes it when a reading of another interval arrives.
This module compares that with a reference that has all readings before it: they are cut into
the longest **runs** of consecutive readings of one clock hour, day or month (`Summary.runs`),
the last run is left out, and each other run is one point (`Summary.SumsUp`).  The readings may
be in any order of time; an interval that comes back begins another run.

* **Intervals.**  Two times have the same stamp exactly if they are of the same hour, day or
  month (`Summary.stamp_eq_iff`), and the stamp is the first instant of that interval
  (`Summary.isStart_stamp`).
* **Buckets.**  The open bucket holds the run that was read last (`Bucket.Holds`).  A reading
  of its interval joins it (`Bucket.Holds.join`), any other closes it and opens the next one.
* **Words.**  A run of fewer than 2^32 readings has a sum that a signed 64-bit word holds and
  a mean between its least and its greatest value, whatever was read before it.

`Summary.points_of_runs` is the whole of it.
-/
import Mathlib.Algebra.GroupWithZero.Nat
import Mathlib.Algebra.Ring.Int.Defs
import Mathlib.Data.List.SplitBy
import IrrigationLog.Proofs.SeriesOrder

namespace IrrigationLog

/-! ## 1. Intervals -/

/-- The first day of a month comes as many days before a day as that one's number says. -/
theorem Date.dayNumber_monthStart (d : Date) :
    d.monthStart.dayNumber = d.dayNumber - ((d.day : Int) - 1) := by
  unfold dayNumber ordinal monthStart
  dsimp only
  omega

namespace Summary

/-- Whether two times are of the same clock hour, day or month.  Without a summary no two
readings belong together. -/
def together : Summary → DateTime → DateTime → Bool
  | .raw, _, _ => false
  | .hour, s, t => s.date = t.date && s.time.hour = t.time.hour
  | .day, s, t => s.date = t.date
  | .month, s, t => s.date.year = t.date.year && s.date.month = t.date.month

/-- A time is the first instant of the hour, day or month of another. -/
structure IsStart (summary : Summary) (start t : DateTime) : Prop where
  together : summary.together start t = true
  first : ∀ u, summary.together u t = true → start.epochSeconds ≤ u.epochSeconds
  onSecond : start.time.nanosecond = 0

variable {summary : Summary} {s t : DateTime}

/-- **A stamp stands for its interval.** -/
theorem stamp_eq_iff (h : summary ≠ .raw) :
    summary.stamp s = summary.stamp t ↔ summary.together s t = true := by
  cases summary with
  | raw => exact absurd rfl h
  | hour => simp [stamp, intervalStart, DateTime.hourStart, together]
  | day => simp [stamp, intervalStart, DateTime.dayStart, together]
  | month => simp [stamp, intervalStart, DateTime.monthStart, Date.monthStart, together]

/-- The day of a time starts no later than the time. -/
theorem epochSeconds_dayStart_le_self (t : DateTime) :
    t.dayStart.epochSeconds ≤ t.epochSeconds := by
  rw [DateTime.epochSeconds_dayStart]
  unfold DateTime.epochSeconds
  omega

/-- No stamp comes after its time. -/
theorem epochSeconds_stamp_le_self (summary : Summary) (t : DateTime) :
    (summary.stamp t).epochSeconds ≤ t.epochSeconds := by
  cases summary with
  | raw => exact Int.le_refl _
  | hour =>
    change t.hourStart.epochSeconds ≤ _
    rw [DateTime.epochSeconds_hourStart]
    unfold DateTime.epochSeconds TimeOfDay.seconds
    omega
  | day => exact epochSeconds_dayStart_le_self t
  | month =>
    have hfirst := t.date.dayNumber_monthStart
    have hday := t.date.day_bounds.1
    have hstart : t.monthStart.epochSeconds = t.date.monthStart.dayNumber * 86400 :=
      DateTime.epochSeconds_dayStart ⟨t.date.monthStart, t.time⟩
    change t.monthStart.epochSeconds ≤ _
    rw [hstart]
    unfold DateTime.epochSeconds
    omega

/-- A stamp is of the interval of its time. -/
theorem stamp_stamp (h : summary ≠ .raw) (t : DateTime) :
    summary.stamp (summary.stamp t) = summary.stamp t := by
  cases summary with
  | raw => exact absurd rfl h
  | hour | day | month => rfl

/-- **A stamp is the start of the interval.** -/
theorem isStart_stamp (h : summary ≠ .raw) (t : DateTime) :
    summary.IsStart (summary.stamp t) t where
  together := (stamp_eq_iff h).mp (stamp_stamp h t)
  first := by
    intro u hu
    rw [← (stamp_eq_iff h).mpr hu]
    exact epochSeconds_stamp_le_self summary u
  onSecond := by
    cases summary with
    | raw => exact absurd rfl h
    | hour | day | month => rfl

end Summary

/-! ## 2. Runs -/

/-- The value of a reading as a number. -/
def Reading.number (r : Reading) : Int := r.value.toInt

namespace Summary

/-- Readings cut into the longest runs that belong together. -/
def runs (summary : Summary) (rs : List Reading) : List (List Reading) :=
  rs.splitBy fun q r => summary.together q.time r.time

/-- A point sums up a run: it stands at the start of the interval of all its readings and has
their mean, cut off toward zero, which is no less than the least of them and no more than the
greatest. -/
structure SumsUp (summary : Summary) (run : List Reading) (p : SeriesPoint) : Prop where
  time : ∀ r ∈ run, summary.IsStart p.time r.time
  value : p.value.toInt = (run.map Reading.number).sum.tdiv run.length
  bounds : ∃ least greatest, (run.map Reading.number).min? = some least ∧
    (run.map Reading.number).max? = some greatest ∧
    least ≤ p.value.toInt ∧ p.value.toInt ≤ greatest

variable {summary : Summary} {run rs : List Reading} {r : Reading}

/-- Readings of one interval are one run. -/
theorem runs_of_one_interval (hraw : summary ≠ .raw) (hne : run ≠ []) {start : DateTime}
    (h : ∀ q ∈ run, summary.stamp q.time = start) : summary.runs run = [run] := by
  refine List.splitBy_of_isChain hne (List.Pairwise.isChain ?_)
  refine List.pairwise_of_forall_mem_list fun q hq r hr => ?_
  rw [← stamp_eq_iff hraw, h q hq, h r hr]

/-- A reading of another interval ends a run. -/
theorem runs_append_other (hraw : summary ≠ .raw) (hne : run ≠ []) {start : DateTime}
    (h : ∀ q ∈ run, summary.stamp q.time = start) (hr : start ≠ summary.stamp r.time) :
    summary.runs (run ++ r :: rs) = run :: summary.runs (r :: rs) := by
  have hlast : ∀ q ∈ run.getLast?, summary.together q.time r.time = false := by
    intro q hq
    refine Bool.eq_false_iff.mpr fun htogether => hr ?_
    rw [← h q (List.mem_of_getLast? hq)]
    exact (stamp_eq_iff hraw).mpr htogether
  have hrun := runs_of_one_interval hraw hne h
  unfold runs at hrun ⊢
  rw [List.splitBy_append_cons rs hlast, hrun, List.singleton_append]

end Summary

/-! ## 3. Means -/

/-- A sum lies between as many times the least and the greatest. -/
theorem sum_bounds {ns : List Int} {lo hi : Int} (h : ∀ n ∈ ns, lo ≤ n ∧ n ≤ hi) :
    lo * ns.length ≤ ns.sum ∧ ns.sum ≤ hi * ns.length := by
  induction ns with
  | nil => simp
  | cons n ns ih =>
    have hn := h n List.mem_cons_self
    have hns := ih fun m hm => h m (List.mem_cons_of_mem _ hm)
    simp only [List.length_cons, List.sum_cons, Int.natCast_add, Int.mul_add]
    omega

/-- **A mean lies between the least and the greatest**, also cut off toward zero. -/
theorem mean_bounds {ns : List Int} {lo hi : Int} (hne : ns ≠ []) (h : ∀ n ∈ ns, lo ≤ n ∧ n ≤ hi) :
    lo ≤ ns.sum.tdiv ns.length ∧ ns.sum.tdiv ns.length ≤ hi := by
  have hlength : (0 : Int) < ns.length := by
    have := List.length_pos_iff.mpr hne
    omega
  obtain ⟨hlo, hhi⟩ := sum_bounds h
  have hbelow := Int.tdiv_le_tdiv hlength hlo
  have habove := Int.tdiv_le_tdiv hlength hhi
  rw [Int.mul_tdiv_cancel _ (Int.ne_of_gt hlength)] at hbelow habove
  exact ⟨hbelow, habove⟩

/-- A mean has the least and the greatest of its values around it. -/
theorem exists_mean_bounds {ns : List Int} (hne : ns ≠ []) :
    ∃ least greatest, ns.min? = some least ∧ ns.max? = some greatest ∧
      least ≤ ns.sum.tdiv ns.length ∧ ns.sum.tdiv ns.length ≤ greatest := by
  obtain ⟨least, hleast⟩ := Option.isSome_iff_exists.mp (List.isSome_min?_of_ne_nil hne)
  obtain ⟨greatest, hgreatest⟩ := Option.isSome_iff_exists.mp (List.isSome_max?_of_ne_nil hne)
  exact ⟨least, greatest, hleast, hgreatest, mean_bounds hne fun n hn =>
    ⟨(List.min?_eq_some_iff.mp hleast).2 n hn, (List.max?_eq_some_iff.mp hgreatest).2 n hn⟩⟩

theorem Reading.number_bounds (r : Reading) : -2 ^ 31 ≤ r.number ∧ r.number ≤ 2 ^ 31 - 1 := by
  have := r.value.le_toInt
  have := r.value.toInt_lt
  unfold number
  omega

theorem Reading.bounds_of_mem_numbers {rs : List Reading} {n : Int}
    (h : n ∈ rs.map Reading.number) : -2 ^ 31 ≤ n ∧ n ≤ 2 ^ 31 - 1 := by
  obtain ⟨r, -, rfl⟩ := List.mem_map.mp h
  exact r.number_bounds

/-! ## 4. The open bucket -/

namespace Bucket

/-- A bucket holds a run of readings. -/
structure Holds (summary : Summary) (b : Bucket) (run : List Reading) : Prop where
  ne_nil : run ≠ []
  start : ∀ r ∈ run, summary.stamp r.time = b.start
  sum : b.sum = (run.map Reading.number).sum
  count : b.count = run.length

/-- There are words with the sum and the count of a bucket. -/
def FitsWords (b : Bucket) : Prop :=
  (∃ sum : Int64, sum.toInt = b.sum) ∧ ∃ count : UInt32, count.toNat = b.count

namespace Holds

variable {summary : Summary} {b : Bucket} {run rs : List Reading} {r : Reading}

/-- A bucket that a reading opens. -/
theorem single (summary : Summary) (r : Reading) :
    Holds summary ⟨summary.stamp r.time, r.value.toInt, 1⟩ [r] where
  ne_nil := by simp
  start := by simp
  sum := by simp [Reading.number]
  count := rfl

/-- **A reading of its interval joins the run.** -/
theorem join (h : Holds summary b run) (hr : b.start = summary.stamp r.time) :
    Holds summary ⟨summary.stamp r.time, b.sum + r.value.toInt, b.count + 1⟩ (run ++ [r]) where
  ne_nil := by simp
  start := by
    intro q hq
    rcases List.mem_append.mp hq with hq | hq
    · exact (h.start q hq).trans hr
    · rw [List.mem_singleton.mp hq]
  sum := by
    rw [h.sum, List.map_append, List.sum_append, List.map_singleton, List.sum_singleton]
    rfl
  count := by rw [h.count, List.length_append, List.length_singleton]

/-- **The point of a bucket sums up its run.** -/
theorem sumsUp (hraw : summary ≠ .raw) (h : Holds summary b run) :
    summary.SumsUp run b.point := by
  have hne : run.map Reading.number ≠ [] := mt List.map_eq_nil_iff.mp h.ne_nil
  have hmean : b.sum.tdiv b.count = (run.map Reading.number).sum.tdiv run.length := by
    rw [h.sum, h.count]
  have hlength : ((run.map Reading.number).length : Int) = run.length := by
    rw [List.length_map]
  have hvalue : b.point.value.toInt = (run.map Reading.number).sum.tdiv run.length := by
    have hword := mean_bounds hne fun n hn => Reading.bounds_of_mem_numbers hn
    rw [hlength] at hword
    rw [point, hmean]
    exact Int32.toInt_ofInt_of_le (by omega) (by omega)
  refine ⟨fun r hr => ?_, hvalue, ?_⟩
  · have hstart := Summary.isStart_stamp hraw r.time
    rw [h.start r hr] at hstart
    exact hstart
  · have hbetween := exists_mean_bounds hne
    rw [hlength, ← hvalue] at hbetween
    exact hbetween

/-- **No word overflows** for a run of fewer than 2^32 readings. -/
theorem fitsWords (h : Holds summary b run) (hshort : run.length < 2 ^ 32) : b.FitsWords := by
  have hsum := sum_bounds fun n (hn : n ∈ run.map Reading.number) =>
    Reading.bounds_of_mem_numbers hn
  rw [← h.sum, List.length_map] at hsum
  refine ⟨⟨.ofInt b.sum, Int64.toInt_ofInt_of_le (by omega) (by omega)⟩, .ofNat b.count, ?_⟩
  rw [h.count]
  exact UInt32.toNat_ofNat_of_lt' hshort

/-- The run of the open bucket is a part of a run of all readings. -/
theorem exists_run (hraw : summary ≠ .raw) (h : Holds summary b run) (rs : List Reading) :
    ∃ whole ∈ summary.runs (run ++ rs), run.length ≤ whole.length := by
  induction rs generalizing b run with
  | nil =>
    rw [List.append_nil, Summary.runs_of_one_interval hraw h.ne_nil h.start]
    exact ⟨run, List.mem_singleton_self _, Nat.le_refl _⟩
  | cons r rs ih =>
    by_cases hr : b.start = summary.stamp r.time
    · obtain ⟨whole, hwhole, hle⟩ := ih (h.join hr)
      rw [List.append_assoc, List.singleton_append] at hwhole
      rw [List.length_append, List.length_singleton] at hle
      exact ⟨whole, hwhole, by omega⟩
    · rw [Summary.runs_append_other hraw h.ne_nil h.start hr]
      exact ⟨run, List.mem_cons_self, Nat.le_refl _⟩

end Holds

end Bucket

/-! ## 5. Pushing -/

namespace Bucketing

/-- The summary after some readings. -/
def after (b : Bucketing) (rs : List Reading) : Bucketing := rs.foldl (fun b r => (b.push r).1) b

variable {summary : Summary} {b : Bucket} {run : List Reading} {r : Reading}

/-- A reading of the interval of the open bucket yields nothing. -/
theorem push_same (hraw : summary ≠ .raw) (hr : b.start = summary.stamp r.time) :
    push ⟨summary, some b⟩ r =
      (⟨summary, some ⟨summary.stamp r.time, b.sum + r.value.toInt, b.count + 1⟩⟩, none) := by
  rw [push, Summary.intervalStart_eq hraw]
  exact if_pos hr

/-- A reading of another interval yields the open bucket. -/
theorem push_other (hraw : summary ≠ .raw) (hr : b.start ≠ summary.stamp r.time) :
    push ⟨summary, some b⟩ r =
      (⟨summary, some ⟨summary.stamp r.time, r.value.toInt, 1⟩⟩, some b.point) := by
  rw [push, Summary.intervalStart_eq hraw]
  exact if_neg hr

/-- The first reading opens a bucket. -/
theorem push_first (hraw : summary ≠ .raw) (r : Reading) :
    push ⟨summary, none⟩ r = (⟨summary, some ⟨summary.stamp r.time, r.value.toInt, 1⟩⟩, none) := by
  rw [push, Summary.intervalStart_eq hraw]

/-- **With a run in the open bucket**, the readings to come yield the points of all runs but the
last. -/
theorem pushAll_sumsUp (hraw : summary ≠ .raw) (h : b.Holds summary run) (rs : List Reading) :
    List.Forall₂ summary.SumsUp (summary.runs (run ++ rs)).dropLast
      (pushAll ⟨summary, some b⟩ rs).reduceOption := by
  induction rs generalizing b run with
  | nil =>
    rw [List.append_nil, Summary.runs_of_one_interval hraw h.ne_nil h.start]
    exact .nil
  | cons r rs ih =>
    by_cases hr : b.start = summary.stamp r.time
    · have hrest := ih (h.join hr)
      rw [List.append_assoc, List.singleton_append] at hrest
      rw [pushAll, push_same hraw hr]
      exact hrest
    · have hmore : summary.runs (r :: rs) ≠ [] := List.splitBy_ne_nil.mpr (List.cons_ne_nil r rs)
      rw [Summary.runs_append_other hraw h.ne_nil h.start hr, List.dropLast_cons_of_ne_nil hmore,
        pushAll, push_other hraw hr]
      exact .cons (h.sumsUp hraw) (ih (.single summary r))

/-- **On the way** the open bucket holds a run that is no longer than a run of all readings. -/
theorem exists_holds_after (hraw : summary ≠ .raw) (h : b.Holds summary run)
    {seen rs : List Reading} (hseen : seen <+: rs) :
    ∃ b' part, (after ⟨summary, some b⟩ seen).current = some b' ∧ b'.Holds summary part ∧
      ∃ whole ∈ summary.runs (run ++ rs), part.length ≤ whole.length := by
  induction rs generalizing b run seen with
  | nil =>
    rw [List.prefix_nil.mp hseen]
    exact ⟨b, run, rfl, h, h.exists_run hraw []⟩
  | cons r rs ih =>
    rcases List.prefix_cons_iff.mp hseen with rfl | ⟨rest, rfl, hrest⟩
    · exact ⟨b, run, rfl, h, h.exists_run hraw (r :: rs)⟩
    by_cases hr : b.start = summary.stamp r.time
    · have hnext := ih (h.join hr) hrest
      rw [List.append_assoc, List.singleton_append] at hnext
      rw [after, List.foldl_cons, push_same hraw hr]
      exact hnext
    · obtain ⟨b', part, hcurrent, hholds, whole, hwhole, hle⟩ := ih (.single summary r) hrest
      rw [Summary.runs_append_other hraw h.ne_nil h.start hr, after, List.foldl_cons,
        push_other hraw hr]
      exact ⟨b', part, hcurrent, hholds, whole, List.mem_cons_of_mem _ hwhole, hle⟩

/-- Without a summary there is never an open bucket. -/
theorem current_after_raw (seen : List Reading) : (after ⟨.raw, none⟩ seen).current = none := by
  induction seen with
  | nil => rfl
  | cons r seen ih => exact ih

/-- A bucket that is open after some of the readings holds a run no longer than one of theirs. -/
theorem holds_of_current {readings seen : List Reading} (hseen : seen <+: readings)
    (hb : (after ⟨summary, none⟩ seen).current = some b) :
    ∃ part, b.Holds summary part ∧ ∃ whole ∈ summary.runs readings, part.length ≤ whole.length := by
  by_cases hraw : summary = .raw
  · subst hraw
    rw [current_after_raw] at hb
    cases hb
  cases readings with
  | nil =>
    rw [List.prefix_nil.mp hseen] at hb
    cases hb
  | cons r rs =>
    rcases List.prefix_cons_iff.mp hseen with rfl | ⟨rest, rfl, hrest⟩
    · cases hb
    rw [after, List.foldl_cons, push_first hraw] at hb
    obtain ⟨b', part, hcurrent, hholds, hwhole⟩ :=
      exists_holds_after hraw (.single summary r) hrest
    obtain rfl : b' = b := Option.some.inj (hcurrent.symm.trans hb)
    exact ⟨part, hholds, hwhole⟩

end Bucketing

/-! ## 6. Series -/

namespace Summary

variable {summary : Summary}

/-- The points of a summary sum up all runs but the last. -/
theorem forall₂_sumsUp (hraw : summary ≠ .raw) (readings : List Reading) :
    List.Forall₂ summary.SumsUp (summary.runs readings).dropLast (summary.points readings) := by
  cases readings with
  | nil => exact .nil
  | cons r rs =>
    unfold points
    rw [Bucketing.pushAll, Bucketing.push_first hraw]
    exact Bucketing.pushAll_sumsUp hraw (.single summary r) rs

/-- **A summary is the reference on runs.**  Without a summary each reading is its point.
Otherwise the points are those of the longest runs of consecutive readings of one hour, day or
month, one for each but the last, in order.  If no run has 2^32 readings or more, the words of
the open bucket never overflow, however many readings were pushed. -/
theorem points_of_runs (summary : Summary) (readings : List Reading) :
    (summary = .raw → summary.points readings = readings.map Reading.point) ∧
    (summary ≠ .raw →
      List.Forall₂ summary.SumsUp (summary.runs readings).dropLast (summary.points readings)) ∧
    ((∀ run ∈ summary.runs readings, run.length < 2 ^ 32) →
      ∀ seen, seen <+: readings → ∀ b, (Bucketing.after ⟨summary, none⟩ seen).current = some b →
        b.FitsWords) := by
  refine ⟨?_, fun hraw => forall₂_sumsUp hraw readings, ?_⟩
  · rintro rfl
    exact points_raw readings
  · intro hshort seen hseen b hb
    obtain ⟨part, hholds, whole, hwhole, hle⟩ := Bucketing.holds_of_current hseen hb
    exact hholds.fitsWords (Nat.lt_of_le_of_lt hle (hshort whole hwhole))

/-- A reading on the first day of the count. -/
def firstDayReading (seconds : Nat) (value : Int32) : Reading :=
  ⟨⟨.epoch, .ofSeconds seconds⟩, value⟩

/-- Two readings of an hour, one of the next, and one of the first hour again. -/
def returningHour : List Reading :=
  [firstDayReading 18000 (-3), firstDayReading 19800 (-4), firstDayReading 21600 7,
    firstDayReading 18000 1]

/-- The hour that comes back is a run of its own, and the last one; a mean below zero is cut off
toward zero. -/
theorem points_of_runs_of_returningHour :
    let runs := [returningHour.take 2, [firstDayReading 21600 7], [firstDayReading 18000 1]]
    Summary.hour ≠ .raw ∧
    hour.runs returningHour = runs ∧ (∀ run ∈ runs, run.length < 2 ^ 32) ∧
    (hour.points returningHour).map (fun p => p.value.toInt) = [-3, 7] ∧
    List.Forall₂ hour.SumsUp runs.dropLast (hour.points returningHour) ∧
    ∀ seen, seen <+: returningHour → ∀ b,
      (Bucketing.after ⟨hour, none⟩ seen).current = some b → b.FitsWords := by
  intro runs
  have hraw : hour ≠ raw := by decide
  have hruns : hour.runs returningHour = runs := by decide
  have hshort : ∀ run ∈ runs, run.length < 2 ^ 32 := by decide
  obtain ⟨-, hpoints, hwords⟩ := points_of_runs hour returningHour
  rw [hruns] at hpoints hwords
  exact ⟨hraw, hruns, hshort, by decide, hpoints hraw, hwords hshort⟩

end Summary

end IrrigationLog
