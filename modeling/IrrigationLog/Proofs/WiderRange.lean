/-
# Scans over a wider range

A scan takes the lines that have started, up to the first one past the end.  A wider range has its
start earlier and its end later, so it moves both, and in a file without any order the two have
nothing to do with each other: a scan over the wider range may go on far beyond the line at which
the other one stopped.

* **Nothing is lost.**  What ends the wider scan ends the narrower one, and what has started for
  the narrower one has started for the wider one (`DayRange.Within.isPastEnd`,
  `DayRange.Within.hasStarted`).
* **What is found less** is told by the file and by the range: the narrower scan finds, of the
  first records of the wider one, those that it covers (`scanLines_narrowed`).
* **All months.**  A wider range looks into more partitions, in the same order
  (`DayRange.Within.months`).

`LogTree.scan_widened` is all of it, for partitions with anything in them.
-/
import Mathlib.Data.List.Flatten
import Mathlib.Data.List.Sort
import IrrigationLog.Proofs.SeriesOrder

namespace IrrigationLog

/-! ## 1. Ranges within ranges -/

namespace DayRange

/-- A range lies within another one of the same year. -/
structure Within (narrow wide : DayRange) : Prop where
  year : narrow.year = wide.year
  start : wide.start ≤ narrow.start
  finish : narrow.finish ≤ wide.finish

variable {narrow wide : DayRange}

/-- What has started for a range has started for a wider one. -/
theorem Within.hasStarted (h : narrow.Within wide) {month day : Nat}
    (hstarted : narrow.hasStarted month day = true) : wide.hasStarted month day = true := by
  have horder := (Date.le_iff_of_year_eq h.year.symm).mp h.start
  simp only [DayRange.hasStarted, Bool.or_eq_true, Bool.and_eq_true, decide_eq_true_eq,
    beq_iff_eq] at hstarted ⊢
  omega

/-- What is past the end of a range is past the end of a narrower one. -/
theorem Within.isPastEnd (h : narrow.Within wide) (hn : narrow.InYear narrow.year)
    (hw : wide.InYear wide.year) {month day : Nat} (hpast : wide.isPastEnd month day = true) :
    narrow.isPastEnd month day = true := by
  have hyear : narrow.finish.year = wide.finish.year := hn.2.trans (h.year.trans hw.2.symm)
  have horder := (Date.le_iff_of_year_eq hyear).mp h.finish
  simp only [DayRange.isPastEnd, Bool.or_eq_true, Bool.and_eq_true, decide_eq_true_eq,
    beq_iff_eq] at hpast ⊢
  omega

/-- **The months of a range** are among those of a wider one, in the same order. -/
theorem Within.months (h : narrow.Within wide) (hn : narrow.InYear narrow.year)
    (hw : wide.InYear wide.year) : List.Sublist narrow.months wide.months := by
  have hyear : narrow.finish.year = wide.finish.year := hn.2.trans (h.year.trans hw.2.symm)
  have hstart := (Date.le_iff_of_year_eq h.year.symm).mp h.start
  have hfinish := (Date.le_iff_of_year_eq hyear).mp h.finish
  have hsubset : narrow.months ⊆ wide.months := by
    intro month hmonth
    rw [mem_months] at hmonth ⊢
    omega
  have hsorted := narrow.pairwise_months
  exact List.sublist_of_subperm_of_pairwise (List.subperm_of_subset hsorted.nodup hsubset)
    hsorted wide.pairwise_months

end DayRange

/-! ## 2. Lists of lines -/

section Lines

variable {α β : Type}

/-- Fewer records are found of more: a part of them in the same order, and more exactly, of some
first ones of them, those that are covered. -/
structure FoundOf (covered : β → Bool) (fewer more : List β) : Prop where
  sublist : List.Sublist fewer more
  first : ∃ first, first <+: more ∧ fewer = first.filter covered

/-- What is covered of some first records is a part of all of them. -/
theorem FoundOf.of_prefix {covered : β → Bool} {first more : List β} (h : first <+: more) :
    FoundOf covered (first.filter covered) more where
  sublist := List.filter_sublist.trans h.sublist
  first := ⟨first, h, rfl⟩

/-- **A scan with an earlier end and a later start**, over the same lines.  The induction is on the
lines: as long as none is past the earlier end, both scans go on. -/
theorem scanLines_narrowed {past past' started started' : α → Bool} {record? : α → Option β}
    {covered : β → Bool} (hpast : ∀ l, past' l = true → past l = true)
    (hstarted : ∀ l, started l = true → started' l = true)
    (hcovered : ∀ l r, record? l = some r → covered r = (started l && !past l)) (ls : List α) :
    FoundOf covered (scanLines past started record? ls) (scanLines past' started' record? ls) := by
  induction ls with
  | nil => exact FoundOf.of_prefix List.nil_prefix
  | cons l ls ih =>
    rw [scanLines_cons, scanLines_cons]
    cases hl : past l with
    | true => exact FoundOf.of_prefix List.nil_prefix
    | false =>
      have hl' : past' l = false := by
        cases h : past' l with
        | false => rfl
        | true =>
          rw [hpast l h] at hl
          cases hl
      -- what the line itself stands for is found by both scans, or is not covered
      have hline : (if started l then (record? l).toList else []) =
          (if started' l then (record? l).toList else []).filter covered := by
        cases hr : record? l with
        | none => simp
        | some r =>
          have hrecord := hcovered l r hr
          rw [hl, Bool.not_false, Bool.and_true] at hrecord
          cases hs : started l with
          | true => simp [hstarted l hs, hrecord, hs]
          | false => cases started' l <;> simp [hrecord, hs]
      obtain ⟨first, hfirst, hfound⟩ := ih.first
      rw [hl', if_neg Bool.false_ne_true, if_neg Bool.false_ne_true, hline, hfound,
        ← List.filter_append]
      exact FoundOf.of_prefix ((List.prefix_append_right_inj _).mpr hfirst)

end Lines

/-! ## 3. Partitions -/

section Partitions

variable {narrow wide : DayRange}

/-- A watering partition, scanned over a range and over a wider one. -/
theorem scanWatering_narrowed (h : narrow.Within wide) (hn : narrow.InYear narrow.year)
    (hw : wide.InYear wide.year) (zone : UInt8) (bytes : List UInt8) :
    FoundOf (fun r : WateringRun => narrow.covers r.start.date) (scanWatering zone narrow bytes)
      (scanWatering zone wide bytes) := by
  rw [scanWatering_eq, scanWatering_eq, ← h.year]
  refine scanLines_narrowed ?_ ?_ ?_ _
  · intro l hpast
    exact h.isPastEnd hn hw hpast
  · intro l hstarted
    exact h.hasStarted hstarted
  · intro l r hr
    exact WateringLine.covers_eq hn hr

/-- A sensor partition, scanned over a range and over a wider one. -/
theorem scanReadings_narrowed (h : narrow.Within wide) (hn : narrow.InYear narrow.year)
    (hw : wide.InYear wide.year) (month : UInt8) (bytes : List UInt8) :
    FoundOf (fun r : Reading => narrow.covers r.time.date) (scanReadings month narrow bytes)
      (scanReadings month wide bytes) := by
  rw [scanReadings_eq, scanReadings_eq, ← h.year]
  refine scanLines_narrowed ?_ ?_ ?_ _
  · intro l hpast
    exact h.isPastEnd hn hw hpast
  · intro l hstarted
    exact h.hasStarted hstarted
  · intro l r hr
    exact SensorLine.covers_eq hn hr

end Partitions

/-! ## 4. Trees -/

namespace LogTree

variable {t : LogTree} {narrow wide : DayRange} {kind : Sensor} {id : UInt16}

/-- Both ranges are of one year, and look for one partition. -/
theorem scanZone_narrowed (h : narrow.Within wide) (hn : narrow.InYear narrow.year)
    (hw : wide.InYear wide.year) (zone : UInt8) :
    Option.Rel (FoundOf fun r : WateringRun => narrow.covers r.start.date)
      (t.scanZone zone narrow) (t.scanZone zone wide) := by
  unfold scanZone
  rw [← h.year]
  cases t.open? (.watering narrow.year zone.toNat) with
  | none => exact Option.Rel.none
  | some bytes => exact Option.Rel.some (scanWatering_narrowed h hn hw zone bytes)

theorem scanSensor_narrowed (h : narrow.Within wide) (hn : narrow.InYear narrow.year)
    (hw : wide.InYear wide.year) (month : UInt8) :
    Option.Rel (FoundOf fun r : Reading => narrow.covers r.time.date)
      (t.scanSensor kind id month narrow) (t.scanSensor kind id month wide) := by
  unfold scanSensor
  rw [← h.year]
  cases t.open? (.sensor kind month.toNat narrow.year id.toNat) with
  | none => exact Option.Rel.none
  | some bytes => exact Option.Rel.some (scanReadings_narrowed h hn hw month bytes)

/-- The points of a month, over a range and over a wider one. -/
theorem monthPoints_sublist (h : narrow.Within wide) (hn : narrow.InYear narrow.year)
    (hw : wide.InYear wide.year) (month : Nat) :
    List.Sublist (t.monthPoints kind id narrow .raw month)
      (t.monthPoints kind id wide .raw month) := by
  have hscan : Option.Rel (FoundOf fun r : Reading => narrow.covers r.time.date)
      (t.scanSensor kind id (.ofNat month) narrow) (t.scanSensor kind id (.ofNat month) wide) :=
    scanSensor_narrowed h hn hw (.ofNat month)
  unfold monthPoints
  rw [Summary.points_raw, Summary.points_raw]
  refine List.Sublist.map _ ?_
  generalize t.scanSensor kind id (.ofNat month) narrow = fewer? at hscan ⊢
  generalize t.scanSensor kind id (.ofNat month) wide = more? at hscan ⊢
  cases hscan with
  | none => exact List.Sublist.refl _
  | some hfound => exact hfound.sublist

/-- **The points of all months**, over a range and over a wider one: fewer of fewer months. -/
theorem seriesPoints_sublist (h : narrow.Within wide) (hn : narrow.InYear narrow.year)
    (hw : wide.InYear wide.year) :
    List.Sublist (t.seriesPoints kind id narrow .raw) (t.seriesPoints kind id wide .raw) := by
  have hmonths := (h.months hn hw).flatMap (t.monthPoints kind id narrow .raw)
  refine hmonths.trans (List.Sublist.flatMap_right wide.months ?_)
  intro month _
  exact monthPoints_sublist h hn hw month

/-- The points that every receiver of a series is fed, one after the other, and then told the
number of. -/
def Emits (t : LogTree) (kind : Sensor) (id : UInt16) (range : DayRange) (summary : Summary)
    (points : List SeriesPoint) : Prop :=
  ∀ (σ ε : Type) (receive : σ → SeriesPoint → Except ε σ) (s : σ),
    t.forEachPoint kind id range summary receive s =
      (feed receive s points).map fun s => (s, points.length)

/-- **Widening a range never loses records**, whatever is in the partitions.  A zone, or a sensor in
a month, is absent over both ranges or over none; what is found over the narrower one is a part of
what is found over the wider one, in the same order: of some first records of it, those that the
narrower range covers.  So it is with the points of a series without a summary, over all months. -/
theorem scan_widened (t : LogTree) {from₁ to₁ from₂ to₂ : Date}
    (h : (DayRange.spanning from₁ to₁).Within (DayRange.spanning from₂ to₂)) :
    let narrow := DayRange.spanning from₁ to₁
    let wide := DayRange.spanning from₂ to₂
    (∀ zone : UInt8,
      Option.Rel (FoundOf fun r : WateringRun => narrow.covers r.start.date)
        (t.scanZone zone narrow) (t.scanZone zone wide)) ∧
    (∀ (kind : Sensor) (id : UInt16) (month : UInt8),
      Option.Rel (FoundOf fun r : Reading => narrow.covers r.time.date)
        (t.scanSensor kind id month narrow) (t.scanSensor kind id month wide)) ∧
    (∀ (kind : Sensor) (id : UInt16), ∃ points more : List SeriesPoint,
      t.Emits kind id narrow .raw points ∧ t.Emits kind id wide .raw more ∧
        List.Sublist points more) := by
  intro narrow wide
  have hn : narrow.InYear narrow.year := DayRange.inYear_year_spanning from₁ to₁
  have hw : wide.InYear wide.year := DayRange.inYear_year_spanning from₂ to₂
  refine ⟨?_, ?_, ?_⟩
  · intro zone
    exact scanZone_narrowed h hn hw zone
  · intro kind id month
    exact scanSensor_narrowed h hn hw month
  · intro kind id
    refine ⟨t.seriesPoints kind id narrow .raw, t.seriesPoints kind id wide .raw, ?_, ?_,
      seriesPoints_sublist h hn hw⟩
    · intro σ ε receive s
      exact t.forEachPoint_eq kind id narrow .raw s
    · intro σ ε receive s
      exact t.forEachPoint_eq kind id wide .raw s

/-- Runs of January, February and January again, and readings in no order. -/
def unsortedTree : LogTree where
  tree := .dir [
    ("watering.log", .dir [("wat-1970-01.log", .file (Utf8.encode (Partition.wateringHeader ++
      "1,1,5:0,10,1,100,100\n2,10,5:0,20,1,100,100\n1,2,5:0,30,1,100,100\n".toList)))]),
    ("tempr.log", .dir [
      ("tm-01-70-007.log", .file (Utf8.encode (Partition.sensorHeader .temperature ++
        "1,5:0,10\n31,23:59,7\n2,6:0,30\n".toList))),
      ("tm-02-70-007.log", .file (Utf8.encode (Partition.sensorHeader .temperature ++
        "1,0:0,1\n".toList)))])]
  root := ⟨"/", []⟩
  zones := 1

/-- Over two days a scan stops at February, and misses the second of January behind it; over six
weeks it finds all there is. -/
theorem scan_widened_of_unsortedTree :
    let narrow := DayRange.spanning .epoch .epoch
    let wide := DayRange.spanning .epoch midFebruary
    narrow.Within wide ∧
    (unsortedTree.scanZone 1 narrow).map (·.map WateringRun.duration) = some [10] ∧
    (unsortedTree.scanZone 1 wide).map (·.map WateringRun.duration) = some [10, 20, 30] ∧
    Option.Rel (FoundOf fun r : WateringRun => narrow.covers r.start.date)
      (unsortedTree.scanZone 1 narrow) (unsortedTree.scanZone 1 wide) ∧
    Option.Rel (FoundOf fun r : Reading => narrow.covers r.time.date)
      (unsortedTree.scanSensor .temperature 7 1 narrow)
      (unsortedTree.scanSensor .temperature 7 1 wide) ∧
    ∃ points more : List SeriesPoint, points.length = 1 ∧ more.length = 4 ∧
      List.Sublist points more := by
  intro narrow wide
  have hwithin : narrow.Within wide := by
    constructor <;> decide
  have hfew : unsortedTree.forEachPoint .temperature 7 narrow .raw
      (fun (n : Nat) _ => (.ok (n + 1) : Except Unit Nat)) 0 = .ok (1, 1) := by
    decide +kernel
  have hmany : unsortedTree.forEachPoint .temperature 7 wide .raw
      (fun (n : Nat) _ => (.ok (n + 1) : Except Unit Nat)) 0 = .ok (4, 4) := by
    decide +kernel
  obtain ⟨hzones, hsensors, hseries⟩ := scan_widened unsortedTree hwithin
  obtain ⟨points, more, hpoints, hmore, hsublist⟩ := hseries .temperature 7
  have hcount {n : Nat} {ps : List SeriesPoint}
      (h : (feed (fun (n : Nat) _ => (.ok (n + 1) : Except Unit Nat)) 0 ps).map
        (fun s => (s, ps.length)) = .ok (n, n)) : ps.length = n := by
    cases hfed : feed (fun (n : Nat) _ => (.ok (n + 1) : Except Unit Nat)) 0 ps with
    | error e =>
      rw [hfed] at h
      cases h
    | ok m =>
      rw [hfed] at h
      simp only [Except.map, Except.ok.injEq, Prod.mk.injEq] at h
      exact h.2
  refine ⟨hwithin, by decide +kernel, by decide +kernel, hzones 1, hsensors .temperature 7 1,
    points, more, ?_, ?_, hsublist⟩
  · exact hcount ((hpoints Nat Unit _ 0).symm.trans hfew)
  · exact hcount ((hmore Nat Unit _ 0).symm.trans hmany)

end LogTree

end IrrigationLog
