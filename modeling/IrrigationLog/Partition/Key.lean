/-
# Partitions

The log tree divides its data into partitions, one file each: system events by month, watering
runs by year and zone, readings by sensor, month and the last two digits of the year.  A new
watering or sensor partition starts with a header row; a system log has none.

    logs/sys-MM-YYYY.log
    watering.log/wat-YYYY-ZZ.log
    <directory of the sensor>/<mark>-MM-YY-III.log

Names and headers are the format on disk: nothing that was written under one name is ever
looked for under another.
-/
import IrrigationLog.Text.Numeral
import IrrigationLog.Tree.Path
import IrrigationLog.Vocabulary.Sensor

namespace IrrigationLog

open Text

/-- What names a partition. -/
inductive Partition where
  | system (month : Nat) (year : Int)
  | watering (year : Int) (zone : Nat)
  | sensor (kind : Sensor) (month : Nat) (year : Int) (id : Nat)
  deriving DecidableEq

namespace Partition

/-- The category in whose directory the partition lies. -/
def category : Partition → Category
  | system .. => .system
  | watering .. => .watering
  | sensor kind .. => kind.category

/-- The file name in characters. -/
def fileChars : Partition → List Char
  | system month year =>
    "sys-".toList ++ padded 2 month ++ '-' :: signedPadded 4 year ++ ".log".toList
  | watering year zone =>
    "wat-".toList ++ signedPadded 4 year ++ '-' :: padded 2 zone ++ ".log".toList
  | sensor kind month year id =>
    kind.fileMark.toList ++ '-' :: padded 2 month ++ '-' :: padded 2 (year % 100).toNat ++
      '-' :: padded 3 id ++ ".log".toList

/-- The file name. -/
def fileName (p : Partition) : String := String.ofList p.fileChars

/-- The directory of a category below a root. -/
def directory (root : Path) (c : Category) : Path := root.join c.dirName

/-- The file of a partition below a root. -/
def path (root : Path) (p : Partition) : Path := (directory root p.category).join p.fileName

/-- The header row of every watering partition. -/
def wateringHeader : List Char :=
  "Month,Day,Time,Run time(min),ScheduleID,Adjustment,WUAdjustment\r\n".toList

/-- The header row of the partitions of a sensor kind. -/
def sensorHeader (kind : Sensor) : List Char := "Day,Time,".toList ++ kind.unit.toList ++ ['\n']

/-- What a new partition starts with. -/
def header : Partition → List Char
  | system .. => []
  | watering .. => wateringHeader
  | sensor kind .. => sensorHeader kind

/-- The names that lead to a partition are those of its root, its directory and its file. -/
@[simp]
theorem names_path (root : Path) (p : Partition) :
    (p.path root).names = root.names ++ [p.category.dirName, p.fileName] := by
  simp [path, directory]

end Partition

end IrrigationLog
