/-
# Severities

How serious a system event is.  The code goes into the system log as it is; a smaller code is
more serious.  Downstream a verbose event passes for an informational one.
-/
import IrrigationLog.Vocabulary.Basic

namespace IrrigationLog

/-- How serious a system event is, the most serious first. -/
inductive Severity where
  | crit
  | error
  | warning
  | notice
  | info
  | verbose
  deriving DecidableEq

namespace Severity

/-- The code in the system log. -/
def code : Severity → UInt8
  | crit => 2
  | error => 3
  | warning => 4
  | notice => 5
  | info => 6
  | verbose => 7

/-- The severity with a code. -/
def ofCode (code : UInt8) : Except VocabularyError Severity :=
  match code with
  | 2 => .ok crit
  | 3 => .ok error
  | 4 => .ok warning
  | 5 => .ok notice
  | 6 => .ok info
  | 7 => .ok verbose
  | n => .error (.unknownSeverityCode n)

/-- The severity with a name. -/
def ofName : String → Except VocabularyError Severity :=
  readName "severity"
    [("crit", crit), ("critical", crit), ("error", error), ("warning", warning),
      ("warn", warning), ("notice", notice), ("info", info), ("verbose", verbose)]

/-- The label shown to a reader. -/
def label : Severity → String
  | crit => "CRIT"
  | error => "ERROR"
  | warning => "WARNING"
  | notice => "NOTICE"
  | info => "INFO"
  | verbose => "VERBOSE"

/-- The name in structured data. -/
def word : Severity → String
  | crit => "crit"
  | error => "error"
  | warning => "warning"
  | notice => "notice"
  | info => "info"
  | verbose => "verbose"

/-- The severity that an event has downstream. -/
def routed : Severity → Severity
  | verbose => info
  | s => s

/-- More serious comes first. -/
instance : Ord Severity := ⟨fun a b => compare a.code.toNat b.code.toNat⟩

/-- A severity is found by its code. -/
@[simp]
theorem ofCode_code (s : Severity) : ofCode s.code = .ok s := by cases s <;> rfl

end Severity

end IrrigationLog
