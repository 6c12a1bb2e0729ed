/-
# Values on the command line

A word of the command line is read as a value of the kind that its argument takes.  A number
is read digit by digit as a word of 64 bits and then held against the bounds of its argument;
a path may not be empty; dates, times and names are read as everywhere else.
-/
import IrrigationLog.Calendar.Written
import IrrigationLog.Command.Usage
import IrrigationLog.Vocabulary.Grouping
import IrrigationLog.Vocabulary.Sensor
import IrrigationLog.Vocabulary.Severity

namespace IrrigationLog.Value

open Text

/-! ## 1. Numbers -/

/-- Why a word is no number of 64 bits. -/
inductive NumberError where
  | empty
  | badDigit
  | tooLarge
  | tooSmall
  deriving DecidableEq

/-- What is said of a word that is no number. -/
def NumberError.message : NumberError → String
  | empty => "cannot parse integer from empty string"
  | badDigit => "invalid digit found in string"
  | tooLarge => "number too large to fit in target type"
  | tooSmall => "number too small to fit in target type"

/-- Takes further digits to a number above or below zero; the first fault counts. -/
def readDigits (negative : Bool) (n : Int) : List Char → Except NumberError Int
  | [] => .ok n
  | c :: cs =>
    if c.isDigit then
      let digit : Int := c.toNat - '0'.toNat
      let n := if negative then n * 10 - digit else n * 10 + digit
      if 2 ^ 63 ≤ n then .error .tooLarge
      else if n < -2 ^ 63 then .error .tooSmall
      else readDigits negative n cs
    else .error .badDigit

/-- A number of 64 bits: digits after an optional sign. -/
def readNumber : List Char → Except NumberError Int
  | [] => .error .empty
  | ['+'] => .error .badDigit
  | ['-'] => .error .badDigit
  | '+' :: cs => readDigits false 0 cs
  | '-' :: cs => readDigits true 0 cs
  | cs => readDigits false 0 cs

/-- A number within bounds. -/
def number (low high : Int) (word : String) : Except ValueError Int :=
  match readNumber word.toList with
  | .error e => .error (.reason e.message)
  | .ok n => if low ≤ n ∧ n ≤ high then .ok n else .error (.reason s!"{n} is not in {low}..={high}")

/-- A number of one byte. -/
def uint8 (word : String) : Except ValueError UInt8 :=
  (number 0 255 word).map fun n => .ofNat n.toNat

/-- A number of two bytes. -/
def uint16 (word : String) : Except ValueError UInt16 :=
  (number 0 65535 word).map fun n => .ofNat n.toNat

/-- A number of four bytes with a sign. -/
def int32 (word : String) : Except ValueError Int32 :=
  (number (-2147483648) 2147483647 word).map Int32.ofInt

/-- The number of a zone that can be configured, or of such zones. -/
def zoneNumber (word : String) : Except ValueError UInt8 :=
  (number 1 8 word).map fun n => .ofNat n.toNat

/-! ## 2. Paths, dates and times -/

/-- A path; the empty one is none. -/
def path (word : String) : Except ValueError String :=
  if word = "" then .error .empty else .ok word

/-- A typed date. -/
def date (word : String) : Except ValueError Date :=
  match Date.parse? word.toList with
  | some d => .ok d
  | none => .error (.reason (Date.refusal word))

/-- A typed date-time. -/
def time (word : String) : Except ValueError DateTime :=
  match DateTime.parse? word.toList with
  | some t => .ok t
  | none => .error (.reason (DateTime.refusal word))

/-! ## 3. Names -/

/-- A value of the vocabulary of the station. -/
def ofVocabulary : Except VocabularyError α → Except ValueError α
  | .ok a => .ok a
  | .error e => .error (.reason e.message)

/-- A severity, by name. -/
def severity (word : String) : Except ValueError Severity :=
  ofVocabulary (Severity.ofName word)

/-- A grouping, by name. -/
def grouping (word : String) : Except ValueError Grouping :=
  ofVocabulary (Grouping.ofName word)

/-- A summary, by name. -/
def summary (word : String) : Except ValueError Summary := ofVocabulary (Summary.ofName word)

/-- The code of a sensor kind: any code at all, or the one of a name. -/
def sensorCode (word : String) : Except ValueError UInt8 :=
  match readUInt8? word.toList with
  | some code => .ok code
  | none => (ofVocabulary (Sensor.ofName word)).map Sensor.code

/-- A sensor kind, by code or by name. -/
def sensor (word : String) : Except ValueError Sensor :=
  match readUInt8? word.toList with
  | some code => ofVocabulary (Sensor.ofCode code)
  | none => ofVocabulary (Sensor.ofName word)

end IrrigationLog.Value
