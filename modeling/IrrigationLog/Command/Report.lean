/-
# What a command reports

A command that fails says what it was about, and below that the reasons, from the nearest to
the farthest.  Several reasons are numbered.  A reason of several lines is indented as a whole.

* `CommandError.message`, `CommandError.reasons`;
* `CommandError.report`: the lines shown.
-/
import IrrigationLog.Config
import IrrigationLog.Error
import IrrigationLog.Text.Numeral

namespace IrrigationLog

open Text

/-- What a command was about to record. -/
inductive Recorded where
  | wateringRun
  | sensorReading
  | systemEvent
  deriving DecidableEq

/-- What was recorded, in messages. -/
def Recorded.title : Recorded → String
  | wateringRun => "watering run"
  | sensorReading => "sensor reading"
  | systemEvent => "system event"

/-- Why a command failed. -/
inductive CommandError where
  | config (e : ConfigError)
  | setUp (root : Path) (e : StoreError)
  | record (what : Recorded) (e : StoreError)
  /-- The file for an answer could not be opened. -/
  | output (path : Path) (cause : Cause)
  | query (e : StoreError)
  /-- The end of an answer could not be written. -/
  | unfinished (cause : String)
  deriving DecidableEq

namespace CommandError

/-- What a failed command was about. -/
def message : CommandError → String
  | config e => e.message
  | setUp root _ => s!"Failed to set up log tree at {root.text}"
  | record what _ => s!"Failed to record {what.title}"
  | output path _ => s!"Failed to write to {path.text}"
  | query _ => "Query failed"
  | unfinished cause => cause

/-- Why it failed, the nearest reason first. -/
def reasons : CommandError → List String
  | config e => e.reasons
  | setUp _ e | record _ e | query e => e.message :: e.below
  | output _ cause => [cause.message]
  | unfinished _ => []

/-- A reason with something in front, its further lines moved in by as much. -/
def indented (front : List Char) (reason : String) : List Char :=
  front ++ reason.toList.flatMap fun c =>
    if c = '\n' then '\n' :: List.replicate front.length ' ' else [c]

/-- Numbered reasons, each on a line of its own. -/
def numbered (n : Nat) : List String → List Char
  | [] => []
  | reason :: reasons =>
    '\n' :: indented (rightAligned 5 (decimal n) ++ [':', ' ']) reason ++ numbered (n + 1) reasons

/-- The reasons as they are listed. -/
def listing : List String → List Char
  | [] => []
  | [reason] => "\n\nCaused by:\n".toList ++ indented (List.replicate 4 ' ') reason
  | reasons => "\n\nCaused by:".toList ++ numbered 0 reasons

/-- The lines that a failed command shows. -/
def report (e : CommandError) : List Char :=
  "Error: ".toList ++ e.message.toList ++ listing e.reasons ++ ['\n']

end CommandError

end IrrigationLog
