/-
# What can go wrong with the log store

Every failure is one of a few causes; the text shown for it is made in one place.  A failed
write means that the one record or event is lost, nothing more.
-/
import IrrigationLog.Tree.Basic
import IrrigationLog.Tree.Path
import IrrigationLog.Vocabulary.Grouping

namespace IrrigationLog

/-- Why an operation of the log store failed. -/
inductive StoreError where
  /-- The store was not set up, or it was closed. -/
  | notReady
  /-- The directory of a category could not be made. -/
  | createDirectory (path : Path) (cause : Cause)
  /-- A partition could neither be opened nor created. -/
  | openFile (path : Path) (cause : Cause)
  /-- No sensor kind has this code. -/
  | unsupportedSensor (code : UInt8)
  /-- There is no rule for the bins of this grouping. -/
  | unsupportedGrouping (grouping : Grouping)
  /-- The output failed within a value written as structured data. -/
  | serialization (cause : String)
  /-- The output failed elsewhere. -/
  | output (cause : String)
  deriving DecidableEq

namespace StoreError

/-- The text shown for a failure. -/
def message : StoreError → String
  | notReady => "Log store is not ready"
  | createDirectory path cause =>
    s!"Failed to create log directory {path.text}: {cause.message}"
  | openFile path cause => s!"Failed to open log file {path.text}: {cause.message}"
  | unsupportedSensor code => s!"Unsupported sensor type: {code.toNat}"
  | unsupportedGrouping grouping => s!"Unsupported grouping: {grouping.word}"
  | serialization cause => s!"Serialization error: {cause}"
  | output cause => s!"IO error: {cause}"

/-- The failure below this one, if it has one of its own. -/
def below : StoreError → List String
  | createDirectory _ cause => [cause.message]
  | openFile _ cause => [cause.message]
  | serialization cause => [cause]
  | output cause => [cause]
  | _ => []

end StoreError

end IrrigationLog
