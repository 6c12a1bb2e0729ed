/-
# The order of a series

The points of a series come from three loops, one inside the other: over the months of the
range, over the readings of a partition, and over the readings of a bucket.  This module says
what that makes of the times of the points, for partitions with anything in them.

* **One partition.**  A bucket is closed by the first reading of another interval, so the times
  of the points are the intervals of the readings, each run of equal ones taken once and the
  last one left out (`Summary.map_time_points`).  If the readings are in order, no interval
  comes back.  A summary by months finds one interval in a partition, and leaves it out.
* **All months.**  A scan finds readings of the month of its partition and of no other
  (`LogTree.of_mem_monthPoints`), so that the points of two months never mix.

Every time that a scan finds is on a whole second, and so is every start of an interval: the
order of such times is that of their seconds (`DateTime.epochSeconds_eq_iff`).

`LogTree.series_in_order` is the whole of it.
-/
import Mathlib.Data.List.Destutter
import IrrigationLog.Proofs.CalendarCount
import IrrigationLog.Proofs.FileScan
import IrrigationLog.Proofs.SeriesPoints

namespace IrrigationLog

/-! ## 1. Times and their seconds -/

namespace DateTime

variable {s t : DateTime}

/-- A time of an earlier day is earlier. -/
theorem epochSeconds_lt_of_date_lt (h : s.date < t.date) : s.epochSeconds < t.epochSeconds := by
  have hday : s.date.dayNumber < t.date.dayNumber := h
  have hseconds := s.time.seconds_lt
  unfold epochSeconds
  omega

theorem epochSeconds_dayStart (t : DateTime) :
    t.dayStart.epochSeconds = t.date.dayNumber * 86400 := by
  simp [epochSeconds, dayStart, TimeOfDay.seconds, TimeOfDay.midnight]

theorem epochSeconds_hourStart (t : DateTime) :
    t.hourStart.epochSeconds = t.date.dayNumber * 86400 + t.time.hour * 3600 := by
  simp [epochSeconds, hourStart, TimeOfDay.seconds]

/-- The days of times in order start in order. -/
theorem epochSeconds_dayStart_le (h : s.epochSeconds ≤ t.epochSeconds) :
    s.dayStart.epochSeconds ≤ t.dayStart.epochSeconds := by
  have hs := s.time.seconds_lt
  have ht := t.time.seconds_lt
  rw [epochSeconds_dayStart, epochSeconds_dayStart]
  unfold epochSeconds at h
  omega

/-- The hours of times in order start in order. -/
theorem epochSeconds_hourStart_le (h : s.epochSeconds ≤ t.epochSeconds) :
    s.hourStart.epochSeconds ≤ t.hourStart.epochSeconds := by
  have hs := And.intro s.time.minute_lt s.time.second_lt
  have ht := And.intro t.time.minute_lt t.time.second_lt
  have hhour := And.intro s.time.hour_lt t.time.hour_lt
  rw [epochSeconds_hourStart, epochSeconds_hourStart]
  unfold epochSeconds TimeOfDay.seconds at h
  omega

end DateTime

/-! ## 2. Stamps -/

namespace Summary

/-- The time that a point has for a reading at a time: the start of the interval around it, or,
without a summary, the time itself. -/
def stamp (summary : Summary) (t : DateTime) : DateTime := (summary.intervalStart t).getD t

variable {summary : Summary} {s t : DateTime}

theorem intervalStart_eq (h : summary ≠ .raw) (t : DateTime) :
    summary.intervalStart t = some (summary.stamp t) := by
  cases summary with
  | raw => exact absurd rfl h
  | hour | day | month => rfl

/-- A stamp of a time on a whole second is on a whole second. -/
theorem nanosecond_stamp (summary : Summary) (h : t.time.nanosecond = 0) :
    (summary.stamp t).time.nanosecond = 0 := by
  cases summary with
  | raw => exact h
  | hour | day | month => rfl

/-- No stamp but that of a month leaves the day. -/
theorem date_stamp (h : summary ≠ .month) (t : DateTime) : (summary.stamp t).date = t.date := by
  cases summary with
  | month => exact absurd rfl h
  | raw | hour | day => rfl

/-- The stamps of times in order are in order. -/
theorem epochSeconds_stamp_le (hm : summary ≠ .month) (h : s.epochSeconds ≤ t.epochSeconds) :
    (summary.stamp s).epochSeconds ≤ (summary.stamp t).epochSeconds := by
  cases summary with
  | raw => exact h
  | hour => exact DateTime.epochSeconds_hourStart_le h
  | day => exact DateTime.epochSeconds_dayStart_le h
  | month => exact absurd rfl hm

end Summary

/-! ## 3. One partition -/

/-- **The intervals that readings close**, with a bucket open: each run of equal ones once, and
not the last. -/
theorem Bucketing.map_time_pushAll {summary : Summary} (h : summary ≠ .raw) (b : Bucket)
    (rs : List Reading) :
    ((Bucketing.pushAll ⟨summary, some b⟩ rs).reduceOption.map SeriesPoint.time) =
      ((rs.map fun r => summary.stamp r.time).destutter' (· ≠ ·) b.start).dropLast := by
  induction rs generalizing b with
  | nil => rfl
  | cons r rs ih =>
    rw [pushAll, push, Summary.intervalStart_eq h, List.map_cons]
    dsimp only
    by_cases hsame : b.start = summary.stamp r.time
    · rw [if_pos hsame, List.destutter'_cons_neg _ (by simpa using hsame), hsame]
      exact ih _
    · rw [if_neg hsame, List.destutter'_cons_pos _ hsame,
        List.dropLast_cons_of_ne_nil (List.destutter'_ne_nil _ _)]
      exact congrArg (b.start :: ·) (ih ⟨summary.stamp r.time, r.value.toInt, 1⟩)

/-- The times of the points of a partition. -/
theorem Summary.map_time_points {summary : Summary} (h : summary ≠ .raw) (rs : List Reading) :
    (summary.points rs).map SeriesPoint.time =
      ((rs.map fun r => summary.stamp r.time).destutter (· ≠ ·)).dropLast := by
  cases rs with
  | nil => rfl
  | cons r rs =>
    have hfirst := Bucketing.map_time_pushAll h ⟨summary.stamp r.time, r.value.toInt, 1⟩ rs
    unfold points
    rw [Bucketing.pushAll, Bucketing.push, intervalStart_eq h]
    exact hfirst

/-- Points bear the stamps of readings. -/
theorem Summary.exists_of_mem_points {summary : Summary} {rs : List Reading} {p : SeriesPoint}
    (hp : p ∈ summary.points rs) : ∃ r ∈ rs, p.time = summary.stamp r.time := by
  by_cases h : summary = .raw
  · subst h
    rw [points_raw] at hp
    obtain ⟨r, hr, rfl⟩ := List.mem_map.mp hp
    exact ⟨r, hr, rfl⟩
  · have htime := List.mem_map_of_mem hp (f := SeriesPoint.time)
    rw [map_time_points h] at htime
    have hstamp := (List.destutter_sublist _ _).subset ((List.dropLast_sublist _).subset htime)
    obtain ⟨r, hr, heq⟩ := List.mem_map.mp hstamp
    exact ⟨r, hr, heq.symm⟩

/-- Of one thing again and again, one is left, and it is the last one. -/
theorem dropLast_destutter_replicate {α : Type} [DecidableEq α] (n : Nat) (a : α) :
    ((List.replicate n a).destutter (· ≠ ·)).dropLast = [] := by
  have honce (k : Nat) : (List.replicate k a).destutter' (· ≠ ·) a = [a] := by
    induction k with
    | zero => rfl
    | succ k ih =>
      rw [List.replicate_succ, List.destutter'_cons_neg _ (by simp), ih]
  cases n with
  | zero => rfl
  | succ n =>
    rw [List.replicate_succ, List.destutter_cons', honce]
    rfl

/-- One interval is never closed. -/
theorem Summary.points_of_one_interval {summary : Summary} (h : summary ≠ .raw) {start : DateTime}
    {rs : List Reading} (hrs : ∀ r ∈ rs, summary.stamp r.time = start) :
    summary.points rs = [] := by
  have hstamps : rs.map (fun r => summary.stamp r.time) = List.replicate rs.length start := by
    refine List.eq_replicate_iff.mpr ⟨List.length_map _, fun t ht => ?_⟩
    obtain ⟨r, hr, rfl⟩ := List.mem_map.mp ht
    exact hrs r hr
  have htimes : (summary.points rs).map SeriesPoint.time = [] := by
    rw [map_time_points h, hstamps, dropLast_destutter_replicate]
  exact List.map_eq_nil_iff.mp htimes

/-- Numbers in order increase once their repetitions are left out. -/
theorem pairwise_lt_destutter {ns : List Int} (h : ns.Pairwise (· ≤ ·)) :
    (ns.destutter (· ≠ ·)).Pairwise (· < ·) := by
  refine List.IsChain.pairwise (List.isChain_iff_getElem.mpr fun i hi => ?_)
  have hne := List.isChain_iff_getElem.mp (List.isChain_destutter (· ≠ ·) ns) i hi
  have hle := List.pairwise_iff_getElem.mp (h.sublist (List.destutter_sublist (· ≠ ·) ns)) i (i + 1)
    (by omega) hi (by omega)
  omega

/-- Readings in the order of their times. -/
def InOrder (rs : List Reading) : Prop :=
  rs.Pairwise fun q r => q.time.epochSeconds ≤ r.time.epochSeconds

instance (rs : List Reading) : Decidable (InOrder rs) :=
  inferInstanceAs (Decidable (rs.Pairwise fun q r => q.time.epochSeconds ≤ r.time.epochSeconds))

/-- **The intervals of readings in order** are reported in order, and none twice. -/
theorem Summary.points_in_strict_order {summary : Summary} (hm : summary ≠ .month)
    (hr : summary ≠ .raw) {rs : List Reading} (hsecond : ∀ r ∈ rs, r.time.time.nanosecond = 0)
    (hsorted : InOrder rs) :
    (summary.points rs).Pairwise fun p q => p.time.epochSeconds < q.time.epochSeconds := by
  have hstamps : ((rs.map fun r => summary.stamp r.time).map DateTime.epochSeconds).Pairwise
      (· ≤ ·) := by
    rw [List.pairwise_map, List.pairwise_map]
    exact hsorted.imp fun h => epochSeconds_stamp_le hm h
  have hinjective : ∀ s ∈ rs.map fun r => summary.stamp r.time,
      ∀ t ∈ rs.map fun r => summary.stamp r.time,
        s ≠ t ↔ s.epochSeconds ≠ t.epochSeconds := by
    intro s hs t ht
    obtain ⟨q, hq, rfl⟩ := List.mem_map.mp hs
    obtain ⟨r, hr, rfl⟩ := List.mem_map.mp ht
    exact not_congr (DateTime.epochSeconds_eq_iff (nanosecond_stamp summary (hsecond q hq))
      (nanosecond_stamp summary (hsecond r hr))).symm
  have htimes := (pairwise_lt_destutter hstamps).sublist (List.dropLast_sublist _)
  rw [← List.map_destutter hinjective, ← List.map_dropLast, ← map_time_points hr,
    List.pairwise_map, List.pairwise_map] at htimes
  exact htimes

/-- **The points of readings in order** are in order. -/
theorem Summary.points_in_order {summary : Summary} (hm : summary ≠ .month) {rs : List Reading}
    (hsecond : ∀ r ∈ rs, r.time.time.nanosecond = 0) (hsorted : InOrder rs) :
    (summary.points rs).Pairwise fun p q => p.time.epochSeconds ≤ q.time.epochSeconds := by
  by_cases hr : summary = .raw
  · subst hr
    rw [points_raw, List.pairwise_map]
    exact hsorted
  · exact (points_in_strict_order hm hr hsecond hsorted).imp Int.le_of_lt

/-! ## 4. All months -/

namespace DayRange

variable {range : DayRange}

theorem toNat_of_mem_months {month : Nat} (h : month ∈ range.months) :
    (UInt8.ofNat month).toNat = month := by
  have hmonth := month_bounds_of_mem h
  exact toNat_ofNat_uint8 (by omega)

end DayRange

/-- A day of an earlier month of the same year is earlier. -/
theorem Date.lt_of_month_lt {d e : Date} (hy : d.year = e.year) (hm : d.month < e.month) :
    d < e := by
  have hle : ¬ e ≤ d := by
    rw [le_iff_of_year_eq hy.symm]
    omega
  exact Int.not_le.mp hle

namespace LogTree

variable {t : LogTree} {kind : Sensor} {id : UInt16} {range : DayRange} {summary : Summary}

/-- The points of the partition of a month. -/
def monthPoints (t : LogTree) (kind : Sensor) (id : UInt16) (range : DayRange) (summary : Summary)
    (month : Nat) : List SeriesPoint :=
  summary.points ((t.scanSensor kind id (.ofNat month) range).getD [])

/-- What a scan of a month finds is covered, and of that month. -/
theorem of_mem_scanSensor (hrange : range.InYear range.year) {month : Nat}
    (hmonth : month ∈ range.months) {r : Reading}
    (hr : r ∈ (t.scanSensor kind id (.ofNat month) range).getD []) :
    range.covers r.time.date = true ∧ r.time.date.year = range.year ∧
      r.time.date.month = month ∧ r.time.time.nanosecond = 0 := by
  cases hopen : t.open? (.sensor kind (UInt8.ofNat month).toNat range.year id.toNat) with
  | none =>
    rw [scanSensor, hopen] at hr
    cases hr
  | some bytes =>
    rw [scanSensor_of_open hopen] at hr
    obtain ⟨hcovers, hyear, hm, -, hnano⟩ := SensorLine.of_found hrange hr
    rw [DayRange.toNat_of_mem_months hmonth] at hm
    exact ⟨hcovers, hyear, hm, hnano⟩

/-- **A summary by months** finds one interval in the partition of a month, and never closes
it. -/
theorem monthPoints_month (hrange : range.InYear range.year) {month : Nat}
    (hmonth : month ∈ range.months) : t.monthPoints kind id range .month month = [] := by
  unfold monthPoints
  rcases hreadings : (t.scanSensor kind id (.ofNat month) range).getD [] with _ | ⟨r, rs⟩
  · rfl
  · have hof : ∀ q ∈ r :: rs, q.time.date.year = range.year ∧ q.time.date.month = month := by
      intro q hq
      rw [← hreadings] at hq
      obtain ⟨-, hyear, hm, -⟩ := of_mem_scanSensor hrange hmonth hq
      exact ⟨hyear, hm⟩
    have hstart : ∀ q ∈ r :: rs, Summary.month.stamp q.time = r.time.monthStart := by
      intro q hq
      obtain ⟨hqy, hqm⟩ := hof q hq
      obtain ⟨hry, hrm⟩ := hof r List.mem_cons_self
      have hdate : q.time.date.monthStart = r.time.date.monthStart := by
        unfold Date.monthStart
        simp only [hqy, hqm, hry, hrm]
      exact congrArg (DateTime.mk · .midnight) hdate
    exact Summary.points_of_one_interval (by decide) hstart

/-- A point of a month is of a covered day of that month, on a whole second. -/
theorem of_mem_monthPoints (hrange : range.InYear range.year) (hsummary : summary ≠ .month)
    {month : Nat} (hmonth : month ∈ range.months) {p : SeriesPoint}
    (hp : p ∈ t.monthPoints kind id range summary month) :
    range.covers p.time.date = true ∧ p.time.date.year = range.year ∧
      p.time.date.month = month ∧ p.time.time.nanosecond = 0 := by
  obtain ⟨r, hr, htime⟩ := Summary.exists_of_mem_points hp
  obtain ⟨hcovers, hyear, hm, hnano⟩ := of_mem_scanSensor hrange hmonth hr
  rw [htime, Summary.date_stamp hsummary]
  exact ⟨hcovers, hyear, hm, Summary.nanosecond_stamp summary hnano⟩

/-- Points of two months are in the order of the months. -/
theorem epochSeconds_lt_of_months (hrange : range.InYear range.year) (hsummary : summary ≠ .month)
    {m n : Nat} (hm : m ∈ range.months) (hn : n ∈ range.months) (hlt : m < n) {p q : SeriesPoint}
    (hp : p ∈ t.monthPoints kind id range summary m)
    (hq : q ∈ t.monthPoints kind id range summary n) :
    p.time.epochSeconds < q.time.epochSeconds := by
  obtain ⟨-, hpy, hpm, -⟩ := of_mem_monthPoints hrange hsummary hm hp
  obtain ⟨-, hqy, hqm, -⟩ := of_mem_monthPoints hrange hsummary hn hq
  refine DateTime.epochSeconds_lt_of_date_lt (Date.lt_of_month_lt (hpy.trans hqy.symm) ?_)
  rw [hpm, hqm]
  exact hlt

/-- **Months in order**: a series is in an order in which its months are, and in which the points
of an earlier second are. -/
theorem pairwise_seriesPoints {before : SeriesPoint → SeriesPoint → Prop}
    (hrange : range.InYear range.year) (hsummary : summary ≠ .month)
    (hmonth : ∀ month ∈ range.months, (t.monthPoints kind id range summary month).Pairwise before)
    (hbefore : ∀ p q : SeriesPoint, p.time.epochSeconds < q.time.epochSeconds → before p q) :
    (t.seriesPoints kind id range summary).Pairwise before := by
  refine List.pairwise_flatMap.mpr ⟨hmonth, ?_⟩
  refine (DayRange.pairwise_months range).imp_of_mem fun {m n} hm hn hlt p hp q hq => ?_
  exact hbefore p q (epochSeconds_lt_of_months hrange hsummary hm hn hlt hp hq)

/-- **A summary by months has no points.** -/
theorem seriesPoints_month (hrange : range.InYear range.year) :
    t.seriesPoints kind id range .month = [] :=
  List.flatMap_eq_nil_iff.mpr fun _ hmonth => monthPoints_month hrange hmonth

/-- Every point is of a covered day, on a whole second. -/
theorem of_mem_seriesPoints (hrange : range.InYear range.year) (hsummary : summary ≠ .month)
    {p : SeriesPoint} (hp : p ∈ t.seriesPoints kind id range summary) :
    range.covers p.time.date = true ∧ p.time.time.nanosecond = 0 := by
  obtain ⟨month, hmonth, hp⟩ := List.mem_flatMap.mp hp
  obtain ⟨hcovers, -, -, hnano⟩ := of_mem_monthPoints hrange hsummary hmonth hp
  exact ⟨hcovers, hnano⟩

/-- **The points of all months are in order** if the readings of each are, and no interval is
reported twice. -/
theorem seriesPoints_in_order (hrange : range.InYear range.year) (hsummary : summary ≠ .month)
    (hsorted : ∀ month ∈ range.months,
      InOrder ((t.scanSensor kind id (.ofNat month) range).getD [])) :
    ((t.seriesPoints kind id range summary).Pairwise fun p q =>
        p.time.epochSeconds ≤ q.time.epochSeconds) ∧
      (summary ≠ .raw → (t.seriesPoints kind id range summary).Pairwise fun p q =>
        p.time.epochSeconds < q.time.epochSeconds) := by
  have hsecond : ∀ month ∈ range.months,
      ∀ r ∈ (t.scanSensor kind id (.ofNat month) range).getD [], r.time.time.nanosecond = 0 :=
    fun month hmonth r hr => (of_mem_scanSensor hrange hmonth hr).2.2.2
  constructor
  · refine pairwise_seriesPoints hrange hsummary (fun month hmonth => ?_)
      fun p q hlt => Int.le_of_lt hlt
    exact Summary.points_in_order hsummary (hsecond month hmonth) (hsorted month hmonth)
  · intro hraw
    refine pairwise_seriesPoints hrange hsummary (fun month hmonth => ?_) fun p q hlt => hlt
    exact Summary.points_in_strict_order hsummary hraw (hsecond month hmonth)
      (hsorted month hmonth)

/-- **The shape of a series**, whatever is in the partitions.  A summary by months has no points;
any other has points of covered days only, on whole seconds.  If the readings of each partition
are in order, so are the points of all months together, and no interval is reported twice. -/
theorem series_in_order (t : LogTree) (kind : Sensor) (id : UInt16) (from_ to_ : Date)
    (summary : Summary) :
    let range := DayRange.spanning from_ to_
    ∃ points : List SeriesPoint,
      (∀ (σ ε : Type) (receive : σ → SeriesPoint → Except ε σ) (s : σ),
        t.forEachPoint kind id range summary receive s =
          (feed receive s points).map fun s => (s, points.length)) ∧
      (summary = .month → points = []) ∧
      (∀ p ∈ points, range.start ≤ p.time.date ∧ p.time.date ≤ range.finish ∧
        p.time.time.nanosecond = 0) ∧
      ((∀ month ∈ range.months, ∀ readings,
          t.scanSensor kind id (.ofNat month) range = some readings → InOrder readings) →
        (points.Pairwise fun p q => p.time.epochSeconds ≤ q.time.epochSeconds) ∧
        (summary ≠ .raw →
          points.Pairwise fun p q => p.time.epochSeconds < q.time.epochSeconds)) := by
  intro range
  have hrange : range.InYear range.year := DayRange.inYear_year_spanning from_ to_
  refine ⟨t.seriesPoints kind id range summary,
    fun σ ε receive s => t.forEachPoint_eq kind id range summary s, ?_⟩
  by_cases hsummary : summary = .month
  · -- Without points there is nothing to be covered and nothing out of order.
    subst hsummary
    rw [seriesPoints_month hrange]
    simp
  · refine ⟨fun h => absurd h hsummary, fun p hp => ?_, fun hsorted => ?_⟩
    · obtain ⟨hcovers, hnano⟩ := of_mem_seriesPoints hrange hsummary hp
      obtain ⟨hstart, hfinish⟩ := DayRange.covers_iff.mp hcovers
      exact ⟨hstart, hfinish, hnano⟩
    · refine seriesPoints_in_order hrange hsummary fun month hmonth => ?_
      cases hscan : t.scanSensor kind id (.ofNat month) range with
      | none => exact List.Pairwise.nil
      | some readings => exact hsorted month hmonth readings hscan

/-- The fourteenth of February. -/
def midFebruary : Date :=
  { Date.epoch with month := 2, day := 14, month_bounds := by decide, day_bounds := by decide }

/-- A tree with readings of a sensor in January and in February. -/
def twoMonths : LogTree where
  tree := .dir [("tempr.log", .dir
    [("tm-01-70-007.log", .file (Utf8.encode (Partition.sensorHeader .temperature ++
        "1,5:0,10\n1,5:30,20\n1,6:0,30\n31,23:59,7\n".toList))),
      ("tm-02-70-007.log", .file (Utf8.encode (Partition.sensorHeader .temperature ++
        "1,0:0,1\n1,1:0,2\n2,0:0,5\n".toList)))])]
  root := ⟨"/", []⟩
  zones := 1

/-- The hours of two months: two of each, and the last one of each left out. -/
theorem series_in_order_of_twoMonths :
    let range := DayRange.spanning .epoch midFebruary
    (∀ month ∈ range.months, ∀ readings,
      twoMonths.scanSensor .temperature 7 (.ofNat month) range = some readings →
        InOrder readings) ∧
    ∃ points : List SeriesPoint, points.length = 4 ∧
      (feed (fun means p => Except.ok (means ++ [p.value.toInt])) [] points :
        Except Unit (List Int)) = .ok [15, 30, 1, 2] ∧
      (∀ p ∈ points, range.start ≤ p.time.date ∧ p.time.date ≤ range.finish) ∧
      points.Pairwise fun p q => p.time.epochSeconds < q.time.epochSeconds := by
  intro range
  have hsorted : ∀ month ∈ range.months, ∀ readings,
      twoMonths.scanSensor .temperature 7 (.ofNat month) range = some readings →
        InOrder readings := by
    have hmonths : ∀ month ∈ range.months,
        InOrder ((twoMonths.scanSensor .temperature 7 (.ofNat month) range).getD []) := by
      decide +kernel
    intro month hmonth readings hreadings
    have horder := hmonths month hmonth
    rw [hreadings] at horder
    exact horder
  obtain ⟨points, hfed, -, hcovered, horder⟩ :=
    series_in_order twoMonths .temperature 7 .epoch midFebruary .hour
  have hrun := hfed (List Int) Unit (fun means p => .ok (means ++ [p.value.toInt])) []
  have hmeans : twoMonths.forEachPoint .temperature 7 range .hour
      (fun means p => (.ok (means ++ [p.value.toInt]) : Except Unit (List Int))) [] =
        .ok ([15, 30, 1, 2], 4) := by
    decide +kernel
  rw [hmeans] at hrun
  cases hpoints : feed (fun means p => (.ok (means ++ [p.value.toInt]) : Except Unit (List Int))) []
      points with
  | error e =>
    rw [hpoints] at hrun
    cases hrun
  | ok means =>
    rw [hpoints] at hrun
    simp only [Except.map, Except.ok.injEq, Prod.mk.injEq] at hrun
    obtain ⟨hvalues, hlength⟩ := hrun
    refine ⟨hsorted, points, hlength.symm, by rw [hpoints, hvalues], fun p hp => ?_, ?_⟩
    · exact ⟨(hcovered p hp).1, (hcovered p hp).2.1⟩
    · exact (horder hsorted).2 (by decide)

end LogTree

end IrrigationLog
