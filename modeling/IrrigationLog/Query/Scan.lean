/-
# Scanning partitions

A scan reads the rows of one partition in file order.  Rows that are no line are passed over.
The first line dated after the range ends the scan, whatever follows it; a line dated before
the range, or on a day or time that does not exist, is passed over.

A partition that cannot be opened is absent.  A directory in its place can be opened and has
no rows.
-/
import IrrigationLog.Partition.Key
import IrrigationLog.Partition.Line
import IrrigationLog.Partition.Rows
import IrrigationLog.Query.Range
import IrrigationLog.Tree.Basic

namespace IrrigationLog

/-! ## 1. Lines -/

/-- The records made of the lines up to the first one past the end, from the first ones that
have started. -/
def scanLines (past started : α → Bool) (record? : α → Option β) (lines : List α) : List β :=
  ((lines.takeWhile fun l => !past l).filter started).filterMap record?

/-- The runs of a zone in the bytes of a watering partition. -/
def scanWatering (zone : UInt8) (range : DayRange) (bytes : List UInt8) : List WateringRun :=
  scanLines (fun l => range.isPastEnd l.month.toNat l.day.toNat)
    (fun l => range.hasStarted l.month.toNat l.day.toNat) (WateringLine.run? range.year zone)
    ((Partition.rows bytes).filterMap WateringLine.ofRow?)

/-- The readings in the bytes of a sensor partition of a month. -/
def scanReadings (month : UInt8) (range : DayRange) (bytes : List UInt8) : List Reading :=
  scanLines (fun l => range.isPastEnd month.toNat l.day.toNat)
    (fun l => range.hasStarted month.toNat l.day.toNat) (SensorLine.reading? range.year month)
    ((Partition.rows bytes).filterMap SensorLine.ofRow?)

/-! ## 2. Partitions -/

/-- A log tree to be queried: where it stands, and how many zones are reported. -/
structure LogTree where
  tree : Tree
  root : Path
  zones : UInt8

namespace LogTree

/-- The bytes of a partition that can be opened. -/
def open? (e : LogTree) (p : Partition) : Option (List UInt8) :=
  match e.tree.find? (p.path e.root).names with
  | some (.file bytes) => some bytes
  | some (.dir _) => some []
  | none => none

/-- The runs of a zone, unless its partition is absent. -/
def scanZone (e : LogTree) (zone : UInt8) (range : DayRange) : Option (List WateringRun) :=
  (e.open? (.watering range.year zone.toNat)).map (scanWatering zone range)

/-- The readings of a sensor in a month, unless the partition is absent. -/
def scanSensor (e : LogTree) (kind : Sensor) (id : UInt16) (month : UInt8)
    (range : DayRange) : Option (List Reading) :=
  (e.open? (.sensor kind month.toNat range.year id.toNat)).map (scanReadings month range)

/-- The zones that are reported, in order. -/
def zoneList (e : LogTree) : List UInt8 :=
  (List.range e.zones.toNat).map fun n => .ofNat (n + 1)

end LogTree

end IrrigationLog
