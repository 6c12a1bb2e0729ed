/-
# Names and codes

The station speaks of its sensors, severities, groupings and summaries by name or, for the
first two, by a code in one byte.  Names are taken without regard to the case of the letters
`A` to `Z`.  What cannot be read is reported with the word as it was compared, in lower case,
or with the code.
-/

namespace IrrigationLog

/-- Why a name or a code denotes nothing. -/
inductive VocabularyError where
  /-- No such name; `kind` says of what. -/
  | unknownName (kind name : String)
  | unknownSensorCode (code : UInt8)
  | unknownSeverityCode (code : UInt8)
  deriving DecidableEq

/-- The text shown for an unknown name or code. -/
def VocabularyError.message : VocabularyError → String
  | unknownName kind name => s!"Invalid data: unknown {kind} '{name}'"
  | unknownSensorCode code => s!"Unknown sensor type: {code.toNat}"
  | unknownSeverityCode code => s!"Unknown severity code: {code.toNat}"

/-- A word in lower case; only `A` to `Z` change. -/
def lowercase (s : String) : String := String.ofList (s.toList.map Char.toLower)

/-- Reads a name with a table of names in lower case. -/
def readName (kind : String) (table : List (String × α)) (name : String) :
    Except VocabularyError α :=
  match table.lookup (lowercase name) with
  | some a => .ok a
  | none => .error (.unknownName kind (lowercase name))

end IrrigationLog
