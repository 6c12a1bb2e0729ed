/-
# Lines that are no record

A line of a partition is read in two stages: first its fields, and then the date and the time
that they name.  A line that fails in the first stage is as good as absent.  One that fails in
the second has numbers for a month and a day all the same, and a scan compares them with the end
of its range before it looks whether they name a day: thirteen is past every month.

`LogTree.scan_insert_malformed` is **what such a line does to a scan**, wherever it stands after
the header of a partition, and however it fails.  Unless its numbers come after the end of the
range it does nothing.  If they do, the scan finds what stands before the line and nothing of
what stands behind it.
-/
import IrrigationLog.Proofs.RecordScan

namespace IrrigationLog

namespace LogTree

variable {range : DayRange} {before after : List UInt8}

/-! ## 1. Scans of a tree -/

theorem scanZone_of_open {t : LogTree} {zone : UInt8} {bytes : List UInt8}
    (h : t.open? (.watering range.year zone.toNat) = some bytes) :
    t.scanZone zone range = some (scanWatering zone range bytes) := by
  rw [scanZone, h, Option.map_some]

theorem scanSensor_of_open {t : LogTree} {kind : Sensor} {id : UInt16} {month : UInt8}
    {bytes : List UInt8} (h : t.open? (.sensor kind month.toNat range.year id.toNat) = some bytes) :
    t.scanSensor kind id month range = some (scanReadings month range bytes) := by
  rw [scanSensor, h, Option.map_some]

/-! ## 2. One more line -/

/-- **A line that is no record does nothing to a scan, or it ends it.**  `t` has a partition
without the line and `u` the same one with it. -/
theorem scan_insert_malformed {t u : LogTree} (hbefore : Partition.Complete before)
    (hheader : Partition.records before ≠ []) (line : Partition.FileLine) :
    (∀ zone : UInt8,
      t.open? (.watering range.year zone.toNat) = some (before ++ after) →
      u.open? (.watering range.year zone.toNat) = some (before ++ line.bytes ++ after) →
      (WateringLine.ofRecord? line.content).bind (WateringLine.run? range.year zone) = none →
      u.scanZone zone range =
        if (WateringLine.ofRecord? line.content).any (WateringLine.isPast range) then
          some (scanWatering zone range before)
        else t.scanZone zone range) ∧
    (∀ (kind : Sensor) (id : UInt16) (month : UInt8),
      t.open? (.sensor kind month.toNat range.year id.toNat) = some (before ++ after) →
      u.open? (.sensor kind month.toNat range.year id.toNat)
        = some (before ++ line.bytes ++ after) →
      (SensorLine.ofRecord? line.content).bind (SensorLine.reading? range.year month) = none →
      u.scanSensor kind id month range =
        if (SensorLine.ofRecord? line.content).any (SensorLine.isPast range month) then
          some (scanReadings month range before)
        else t.scanSensor kind id month range) := by
  constructor
  · intro zone ht hu hline
    rw [scanZone_of_open ht, scanZone_of_open hu, ← apply_ite some]
    simp only [scanWatering_eq]
    rw [scanRecords_insert WateringLine.ofRecord?_nil hbefore hheader line hline]
  · intro kind id month ht hu hline
    rw [scanSensor_of_open ht, scanSensor_of_open hu, ← apply_ite some]
    simp only [scanReadings_eq]
    rw [scanRecords_insert SensorLine.ofRecord?_nil hbefore hheader line hline]

/-- A tree with one file, in a directory of the root. -/
def holding (directory file : String) (bytes : List UInt8) : LogTree :=
  ⟨.dir [(directory, .dir [(file, .file bytes)])], ⟨"/", []⟩, 8⟩

/-- The first of January, at midnight. -/
def firstDay : WateringLine := ⟨1, 1, 0, 0, 30, 2, -10, 100⟩

/-- A watering line of the first day of a month that no year has. -/
def thirteenthMonth : Partition.FileLine where
  content := Utf8.encode "13,1,8:30,10,1,100,100".toList
  ending := [13, 10]
  one_record := by decide +kernel
  ending_ne_nil := by simp
  ends := by decide +kernel

/-- A range of one day, two lines of that day, and between them a line of the thirteenth month:
the second line is not found any more. -/
theorem scan_insert_malformed_of_thirteenthMonth :
    let before := Utf8.encode (Partition.wateringHeader ++ firstDay.text)
    let after := Utf8.encode firstDay.text
    let t := holding "watering.log" "wat-1970-01.log" (before ++ after)
    let u := holding "watering.log" "wat-1970-01.log" (before ++ thirteenthMonth.bytes ++ after)
    let range := DayRange.spanning .epoch .epoch
    Partition.Complete before ∧ Partition.records before ≠ [] ∧
    t.open? (.watering range.year (1 : UInt8).toNat) = some (before ++ after) ∧
    u.open? (.watering range.year (1 : UInt8).toNat)
      = some (before ++ thirteenthMonth.bytes ++ after) ∧
    (WateringLine.ofRecord? thirteenthMonth.content).bind (WateringLine.run? range.year 1) = none ∧
    (t.scanZone 1 range).map List.length = some 2 ∧
    (u.scanZone 1 range).map List.length = some 1 := by
  intro before after t u range
  have hcomplete : Partition.Complete before := by decide +kernel
  have hheader : Partition.records before ≠ [] := by decide +kernel
  have ht : t.open? (.watering range.year (1 : UInt8).toNat) = some (before ++ after) := rfl
  have hu : u.open? (.watering range.year (1 : UInt8).toNat)
      = some (before ++ thirteenthMonth.bytes ++ after) := rfl
  have hline : (WateringLine.ofRecord? thirteenthMonth.content).bind
      (WateringLine.run? range.year 1) = none := by decide +kernel
  have hscan := (scan_insert_malformed hcomplete hheader thirteenthMonth).1 1 ht hu hline
  have hpast : (WateringLine.ofRecord? thirteenthMonth.content).any (WateringLine.isPast range)
      = true := by decide +kernel
  refine ⟨hcomplete, hheader, ht, hu, hline, ?_, ?_⟩
  · rw [scanZone_of_open ht]
    decide +kernel
  · rw [hscan, if_pos hpast]
    decide +kernel

end LogTree

end IrrigationLog
