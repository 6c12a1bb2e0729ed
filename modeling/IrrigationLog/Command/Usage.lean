/-
# What is said of a bad command line

A command line that cannot be understood is refused as a whole, before anything is done.  What
is said names the word or the argument at fault; an argument is named by its label, such as
`--zone <ZONE>` or `<ID>`.
-/

namespace IrrigationLog

/-! ## 1. Values -/

/-- Why a word is no value of an argument. -/
inductive ValueError where
  /-- The word is empty, and that is never a value. -/
  | empty
  /-- The word is none of a fixed list. -/
  | unlisted
  | reason (text : String)
  deriving DecidableEq

/-! ## 2. Command lines -/

/-- Why a command line is refused. -/
inductive UsageError where
  | unexpectedArgument (word : String)
  /-- A flag was given a value. -/
  | unexpectedValue (value label : String)
  | missingValue (label : String)
  | badValue (value label : String) (why : ValueError)
  /-- An argument that may be given once was given twice. -/
  | repeated (label : String)
  /-- An argument that has to be given was not. -/
  | missingArguments
  | unknownSubcommand (word : String)
  /-- A command that needs a subcommand was given something, but none. -/
  | missingSubcommand (command : String)
  /-- A command that needs a subcommand was given nothing at all; it says what it is for. -/
  | nothingGiven (about : String)
  deriving DecidableEq

namespace UsageError

/-- The error of a value under a label. -/
def ofValue (value label : String) : ValueError → UsageError
  | .empty => missingValue label
  | why => badValue value label why

/-- What is said of a missing value. -/
def missingValueText (label : String) : String :=
  s!"error: a value is required for '{label}' but none was supplied"

/-- What is said first. -/
def message : UsageError → String
  | unexpectedArgument word => s!"error: unexpected argument '{word}' found"
  | unexpectedValue value label =>
    s!"error: unexpected value '{value}' for '{label}' found; no more were expected"
  | missingValue label => missingValueText label
  | badValue _ label .empty => missingValueText label
  | badValue value label .unlisted =>
    if value = "" then missingValueText label
    else s!"error: invalid value '{value}' for '{label}'"
  | badValue value label (.reason text) => s!"error: invalid value '{value}' for '{label}': {text}"
  | repeated label => s!"error: the argument '{label}' cannot be used multiple times"
  | missingArguments => "error: the following required arguments were not provided:"
  | unknownSubcommand word => s!"error: unrecognized subcommand '{word}'"
  | missingSubcommand command =>
    s!"error: '{command}' requires a subcommand but one was not provided"
  | nothingGiven about => about

end UsageError

end IrrigationLog
