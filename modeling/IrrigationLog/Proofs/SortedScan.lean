/-
# A scan of lines in the order of their dates

A scan ends at the first line past its range, so what it finds depends on the order of the
lines.  In a file whose lines come in the order of their dates nothing is missed: the lines up
to the first one past the end are the lines that are not past the end (`takeWhile_eq_filter`),
and the scan finds all that its range covers (`scanLines_map`).

A line keeps of a time what the name of its file does not say, and the two together give the
time back to the minute (`minuteAt?_eq`).  Hence **what a scan finds in a file that was written
in order** is `scanWatering_encode` and `scanReadings_encode`.
-/
import IrrigationLog.Proofs.DateOrder
import IrrigationLog.Proofs.PartitionFile
import IrrigationLog.Query.Scan

namespace IrrigationLog

/-! ## 1. Sorted lines -/

section Tests

variable {α : Type} {p : α → Bool} {a : α} {as : List α}

/-- Where a failed test is not passed again, nothing passes it after the first failure. -/
theorem filter_eq_nil_of_pairwise (h : (a :: as).Pairwise fun a b => p b = true → p a = true)
    (ha : p a = false) : as.filter p = [] := by
  refine List.filter_eq_nil_iff.mpr fun b hb hpb => ?_
  rw [(List.pairwise_cons.mp h).1 b hb hpb] at ha
  cases ha

/-- What comes before the first failure is all that passes. -/
theorem takeWhile_eq_filter (h : as.Pairwise fun a b => p b = true → p a = true) :
    as.takeWhile p = as.filter p := by
  induction as with
  | nil => rfl
  | cons a as ih =>
    cases hp : p a with
    | true =>
      rw [List.takeWhile_cons_of_pos hp, List.filter_cons_of_pos hp, ih (List.pairwise_cons.mp h).2]
    | false =>
      have hneg : ¬ p a = true := by rw [hp]; simp
      rw [List.takeWhile_cons_of_neg hneg, List.filter_cons_of_neg hneg,
        filter_eq_nil_of_pairwise h hp]

/-- What passes and then what does not are the list as it was. -/
theorem filter_append_filter_not (h : as.Pairwise fun a b => p b = true → p a = true) :
    as.filter p ++ as.filter (fun a => !p a) = as := by
  induction as with
  | nil => rfl
  | cons a as ih =>
    cases hp : p a with
    | true => simp [hp, ih (List.pairwise_cons.mp h).2]
    | false =>
      have hnone := filter_eq_nil_of_pairwise h hp
      have hrest := ih (List.pairwise_cons.mp h).2
      rw [hnone, List.nil_append] at hrest
      simp [hp, hnone, hrest]

end Tests

/-- **A scan finds what its range covers**, if the lines come in the order of their dates. -/
theorem scanLines_map {ρ α β : Type} {past started : α → Bool} {record? : α → Option β}
    {line : ρ → α} {date : ρ → Date} {kept : ρ → β} {range : DayRange} {rs : List ρ}
    (hsorted : (rs.map date).Pairwise (· ≤ ·))
    (hpast : ∀ r ∈ rs, past (line r) = !decide (date r ≤ range.finish))
    (hstarted : ∀ r ∈ rs, started (line r) = decide (range.start ≤ date r))
    (hrecord : ∀ r ∈ rs, record? (line r) = some (kept r)) :
    scanLines past started record? (rs.map line) =
      (rs.filter fun r => range.covers (date r)).map kept := by
  have hwhile : (rs.map line).takeWhile (fun l => !past l)
      = (rs.map line).filter fun l => !past l := by
    refine takeWhile_eq_filter (List.pairwise_map.mpr ?_)
    refine (List.pairwise_map.mp hsorted).imp_of_mem fun {r s} hr hs hle hnot => ?_
    rw [hpast s hs, Bool.not_not, decide_eq_true_iff] at hnot
    rw [hpast r hr, Bool.not_not, decide_eq_true_iff]
    exact Date.le_trans hle hnot
  have hkept : rs.filter ((fun l => started l && !past l) ∘ line)
      = rs.filter fun r => range.covers (date r) := by
    refine List.filter_congr fun r hr => ?_
    rw [Function.comp_apply, hpast r hr, hstarted r hr, Bool.not_not]
    rfl
  unfold scanLines
  rw [hwhile, List.filter_filter, List.filter_map, hkept]
  exact filterMap_map_eq_map fun r hr => hrecord r (List.mem_filter.mp hr).1

/-! ## 2. Times -/

/-- A small number is a word of its own. -/
theorem toNat_ofNat_uint8 {n : Nat} (h : n < 256) : (UInt8.ofNat n).toNat = n := by
  rw [UInt8.toNat_ofNat']
  omega

theorem Date.toNat_ofNat_month (d : Date) : (UInt8.ofNat d.month).toNat = d.month := by
  have := d.month_bounds
  exact toNat_ofNat_uint8 (by omega)

theorem Date.toNat_ofNat_day (d : Date) : (UInt8.ofNat d.day).toNat = d.day := by
  have := d.day_bounds
  have := daysInMonth_le d.year d.month
  exact toNat_ofNat_uint8 (by omega)

/-- **A time is given back to the minute** by the parts that a partition keeps. -/
theorem minuteAt?_eq (t : DateTime) {month : UInt8} (hm : month.toNat = t.date.month) :
    minuteAt? t.date.year month (.ofNat t.date.day) (.ofNat t.time.hour) (.ofNat t.time.minute)
      = some t.toMinute := by
  have hhour := t.time.hour_lt
  have hminute := t.time.minute_lt
  have htime : TimeOfDay.ofParts? t.time.hour t.time.minute 0 0 = some t.toMinute.time :=
    dif_pos ⟨hhour, hminute, by decide, by decide⟩
  unfold minuteAt? DateTime.ofParts?
  rw [hm, t.date.toNat_ofNat_day, toNat_ofNat_uint8 (by omega), toNat_ofNat_uint8 (by omega),
    Date.ofYmd?_self, htime]
  rfl

/-! ## 3. Lines within a range

The tests of a scan are comparisons of dates for every line that was written from a date, and
the line of a recorded run or reading stands for it. -/

section Lines

variable {range : DayRange} {month : UInt8}

theorem WateringLine.isPastEnd_ofRun {r : WateringRun} (h : range.InYear r.start.date.year) :
    range.isPastEnd (ofRun r).month.toNat (ofRun r).day.toNat
      = !decide (r.start.date ≤ range.finish) := by
  rw [← DayRange.isPastEnd_iff h, ofRun, Date.toNat_ofNat_month, Date.toNat_ofNat_day]

theorem WateringLine.hasStarted_ofRun {r : WateringRun} (h : range.InYear r.start.date.year) :
    range.hasStarted (ofRun r).month.toNat (ofRun r).day.toNat
      = decide (range.start ≤ r.start.date) := by
  rw [← DayRange.hasStarted_iff h, ofRun, Date.toNat_ofNat_month, Date.toNat_ofNat_day]

theorem WateringLine.run?_ofRun {r : WateringRun} (h : range.InYear r.start.date.year) :
    run? range.year r.zone (ofRun r) = some r.toMinute := by
  have hyear : range.year = r.start.date.year := h.1
  have hmin := minuteAt?_eq r.start (r.start.date.toNat_ofNat_month)
  unfold run? ofRun
  rw [hyear, hmin]
  rfl

theorem SensorLine.isPastEnd_ofReading {r : Reading} (h : range.InYear r.time.date.year)
    (hm : month.toNat = r.time.date.month) :
    range.isPastEnd month.toNat (ofReading r).day.toNat
      = !decide (r.time.date ≤ range.finish) := by
  rw [← DayRange.isPastEnd_iff h, ofReading, Date.toNat_ofNat_day, hm]

theorem SensorLine.hasStarted_ofReading {r : Reading} (h : range.InYear r.time.date.year)
    (hm : month.toNat = r.time.date.month) :
    range.hasStarted month.toNat (ofReading r).day.toNat
      = decide (range.start ≤ r.time.date) := by
  rw [← DayRange.hasStarted_iff h, ofReading, Date.toNat_ofNat_day, hm]

theorem SensorLine.reading?_ofReading {r : Reading} (h : range.InYear r.time.date.year)
    (hm : month.toNat = r.time.date.month) :
    reading? range.year month (ofReading r) = some ⟨r.time.toMinute, r.value⟩ := by
  have hyear : range.year = r.time.date.year := h.1
  have hmin := minuteAt?_eq r.time hm
  unfold reading? ofReading
  rw [hyear, hmin]
  rfl

end Lines

/-! ## 4. Files in order -/

variable {range : DayRange} {year : Int}

/-- **What a scan finds in a watering partition that was written in order.** -/
theorem scanWatering_encode {zone : UInt8} {rs : List WateringRun} (hr : range.InYear year)
    (hkey : ∀ r ∈ rs, r.start.date.year = year ∧ r.zone = zone)
    (hsorted : (rs.map fun r => r.start.date).Pairwise (· ≤ ·)) :
    scanWatering zone range (Utf8.encode
        (Partition.wateringHeader ++ (rs.map fun r => (WateringLine.ofRun r).text).flatten)) =
      (rs.filter fun r => range.covers r.start.date).map WateringRun.toMinute := by
  have hlines : (rs.map fun r => (WateringLine.ofRun r).text).flatten
      = (rs.map WateringLine.ofRun).flatMap WateringLine.text := by
    rw [List.flatMap_map, List.flatMap]
  have hrange : ∀ r ∈ rs, range.InYear r.start.date.year := fun r h => (hkey r h).1.symm ▸ hr
  unfold scanWatering
  rw [hlines, Partition.lines_watering]
  exact scanLines_map hsorted (fun r h => WateringLine.isPastEnd_ofRun (hrange r h))
    (fun r h => WateringLine.hasStarted_ofRun (hrange r h))
    fun r h => (hkey r h).2 ▸ WateringLine.run?_ofRun (hrange r h)

/-- **What a scan finds in a sensor partition that was written in order.** -/
theorem scanReadings_encode {kind : Sensor} {month : UInt8} {rs : List Reading}
    (hr : range.InYear year)
    (hkey : ∀ r ∈ rs, r.time.date.year = year ∧ r.time.date.month = month.toNat)
    (hsorted : (rs.map fun r => r.time.date).Pairwise (· ≤ ·)) :
    scanReadings month range (Utf8.encode
        (Partition.sensorHeader kind ++ (rs.map fun r => (SensorLine.ofReading r).text).flatten)) =
      (rs.filter fun r => range.covers r.time.date).map fun r => ⟨r.time.toMinute, r.value⟩ := by
  have hlines : (rs.map fun r => (SensorLine.ofReading r).text).flatten
      = (rs.map SensorLine.ofReading).flatMap SensorLine.text := by
    rw [List.flatMap_map, List.flatMap]
  have hrange : ∀ r ∈ rs, range.InYear r.time.date.year := fun r h => (hkey r h).1.symm ▸ hr
  unfold scanReadings
  rw [hlines, Partition.lines_sensor]
  exact scanLines_map hsorted
    (fun r h => SensorLine.isPastEnd_ofReading (hrange r h) (hkey r h).2.symm)
    (fun r h => SensorLine.hasStarted_ofReading (hrange r h) (hkey r h).2.symm)
    fun r h => SensorLine.reading?_ofReading (hrange r h) (hkey r h).2.symm

end IrrigationLog
