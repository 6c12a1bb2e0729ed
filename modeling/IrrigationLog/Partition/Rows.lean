/-
# Rows of a partition file

Any bytes can be read as a partition.  A byte order mark at the start is dropped; a carriage
return or a line feed ends a record; empty records do not count.  The first record is the
header, whatever it holds.  Each record after it that is text is a row: its fields are what
stands between the commas, without the blanks around them.  Quotes mean nothing.

* `records`, `dataRecords`: the records of a file, and those after the header;
* `rowOf?`: the fields of a record;
* `rows`: the rows of a file.
-/
import IrrigationLog.Text.Blank
import IrrigationLog.Text.Split
import IrrigationLog.Text.Utf8

namespace IrrigationLog.Partition

open Text

/-- A line feed or a carriage return. -/
def endsRecord (b : UInt8) : Bool := b == 10 || b == 13

/-- The bytes without a byte order mark at their start. -/
def dropMark : List UInt8 → List UInt8
  | 0xef :: 0xbb :: 0xbf :: bytes => bytes
  | bytes => bytes

/-- The records of a file, empty ones left out. -/
def records (bytes : List UInt8) : List (List UInt8) :=
  (cutAt endsRecord (dropMark bytes)).filter fun r => !r.isEmpty

/-- The records after the header. -/
def dataRecords (bytes : List UInt8) : List (List UInt8) := (records bytes).drop 1

/-- The trimmed fields of a record, if it is text. -/
def rowOf? (record : List UInt8) : Option (List (List Char)) :=
  (Utf8.decode? record).map fun cs => (cutAt (· == ',') cs).map trim

/-- The rows of a file. -/
def rows (bytes : List UInt8) : List (List (List Char)) := (dataRecords bytes).filterMap rowOf?

end IrrigationLog.Partition
