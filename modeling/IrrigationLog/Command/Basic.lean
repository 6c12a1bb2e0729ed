/-
# Commands

What an operator can ask of the station: set the log tree up, record something, put a question,
look at the counters, look at or change the configuration, or have the completions for a shell
written out.

An invocation is a command with the settings that may stand anywhere on the command line.
Where such a setting stands both before and after the name of a command, the latter counts.
-/
import IrrigationLog.Calendar.DateTime
import IrrigationLog.Vocabulary.Grouping
import IrrigationLog.Vocabulary.Sensor
import IrrigationLog.Vocabulary.Severity

namespace IrrigationLog

/-- The days of a question. -/
structure Days where
  first : Date
  /-- The last day, if it is not the first. -/
  last : Option Date
  deriving DecidableEq

/-- A watering run as it is given on the command line. -/
structure GivenRun where
  zone : UInt8
  duration : UInt16
  /-- When the run started, if not now. -/
  start : Option DateTime
  schedule : UInt16
  seasonal : Int32
  weather : Int32
  deriving DecidableEq

/-- What is done with the configuration. -/
inductive ConfigAction where
  | show_
  | path
  | zones (count : UInt8)
  | flow (zone : UInt8) (rate : UInt16)
  deriving DecidableEq

/-- The shells for which there are completions. -/
inductive Shell where
  | bash
  | elvish
  | fish
  | powershell
  | zsh
  deriving DecidableEq

/-- The name of a shell. -/
def Shell.word : Shell → String
  | bash => "bash"
  | elvish => "elvish"
  | fish => "fish"
  | powershell => "powershell"
  | zsh => "zsh"

/-- All shells. -/
def Shell.all : List Shell := [bash, elvish, fish, powershell, zsh]

/-- A command. -/
inductive Command where
  | init
  | watering (run : GivenRun)
  | sensor (code : UInt8) (id : UInt16) (reading : Int32)
  | event (severity : Severity) (words : List String)
  | graph (days : Days) (grouping : Grouping)
  | table (days : Days)
  | series (kind : Sensor) (id : UInt16) (days : Days) (summary : Summary)
  | counters
  | config (action : ConfigAction)
  | completions (shell : Shell)
  deriving DecidableEq

/-- Settings that may stand anywhere on the command line. -/
structure Globals where
  verbose : Bool := false
  quiet : Bool := false
  /-- Where the answer to a question goes, if not to the terminal. -/
  output : Option String := none
  config : Option String := none
  logRoot : Option String := none
  /-- The time to record with. -/
  now : Option DateTime := none
  deriving DecidableEq

/-- Settings from before the name of a command, under those from after it. -/
def Globals.under (inner outer : Globals) : Globals where
  verbose := outer.verbose || inner.verbose
  quiet := outer.quiet || inner.quiet
  output := inner.output.or outer.output
  config := inner.config.or outer.config
  logRoot := inner.logRoot.or outer.logRoot
  now := inner.now.or outer.now

/-- A command with its settings. -/
structure Invocation where
  globals : Globals
  command : Command
  deriving DecidableEq

end IrrigationLog
