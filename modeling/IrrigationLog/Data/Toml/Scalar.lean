/-
# Unquoted values in settings files

An unquoted value is a truth value, a number or a date.  Whole numbers are written in base
ten, after an optional sign and without a zero in front, or in base sixteen, eight or two
after `0x`, `0o` or `0b`.  Underscores may stand between digits.  Numbers with a fraction or
an exponent, dates and times are checked for their form only, because no setting holds one: the
former are read as `other`, the latter as a record that has no field in common with any other.
-/
import IrrigationLog.Calendar.Written
import IrrigationLog.Data.Json
import IrrigationLog.Text.Split

namespace IrrigationLog.Toml

open Text

/-! ## 1. Whole numbers -/

/-- Digits of a class with underscores between them, without the underscores. -/
def digitRun? (isDigit : Char → Bool) (cs : List Char) : Option (List Char) :=
  let runs := cutAt (· == '_') cs
  if runs.all fun run => !run.isEmpty && run.all isDigit then some runs.flatten else none

/-- Digits of base ten without a zero in front. -/
def plainDigits? (cs : List Char) : Option (List Char) :=
  (digitRun? Char.isDigit cs).bind fun ds =>
    if ds.head? = some '0' ∧ ds ≠ ['0'] then none else some ds

/-- The number that digits of a base denote. -/
def valueIn (base : Nat) (ds : List Char) : Nat :=
  ds.foldl (fun n d => n * base + (Json.hexValue? d).getD 0) 0

/-- A number in the given base, below 16. -/
def numberIn? (base : Nat) (cs : List Char) : Option Int :=
  let isDigit := fun c => (Json.hexValue? c).any (· < base)
  (digitRun? isDigit cs).map fun ds => (valueIn base ds : Int)

/-- A text after its sign; whether the sign is a minus sign. -/
def cutSign : List Char → Bool × List Char
  | '+' :: cs => (false, cs)
  | '-' :: cs => (true, cs)
  | cs => (false, cs)

/-- A whole number. -/
def integer? : List Char → Option Int
  | '0' :: 'x' :: cs => numberIn? 16 cs
  | '0' :: 'o' :: cs => numberIn? 8 cs
  | '0' :: 'b' :: cs => numberIn? 2 cs
  | cs =>
    let (negative, cs) := cutSign cs
    (plainDigits? cs).map fun ds =>
      let n := Nat.ofDigitChars 10 ds 0
      if negative then -(n : Int) else n

/-- The numbers that can be held at all. -/
def fits (i : Int) : Bool := -Int.pow 2 127 ≤ i && i < Int.pow 2 128

/-! ## 2. Other numbers -/

/-- An exponent without its mark. -/
def isExponent (cs : List Char) : Bool := (digitRun? Char.isDigit (cutSign cs).2).isSome

/-- A number with a fraction. -/
def isFraction (cs : List Char) : Bool :=
  match cutOnce '.' cs with
  | some (whole, part) => (plainDigits? whole).isSome && (digitRun? Char.isDigit part).isSome
  | none => false

/-- A number with a fraction, an exponent or both, or one that is no number or without end. -/
def isFloating (cs : List Char) : Bool :=
  let cs := (cutSign cs).2
  if cs = ['i', 'n', 'f'] ∨ cs = ['n', 'a', 'n'] then true
  else
    match cutOnce 'e' (cs.map Char.toLower) with
    | some (number, exponent) =>
      ((plainDigits? number).isSome || isFraction number) && isExponent exponent
    | none => isFraction cs

/-! ## 3. Dates and times -/

/-- What follows a fraction of a second. -/
def skipSecondFraction? : List Char → Option (List Char)
  | '.' :: cs =>
    if (cs.takeWhile Char.isDigit).isEmpty then none else some (cs.dropWhile Char.isDigit)
  | cs => some cs

/-- What follows a time of day; the seconds may be left out, and there may be a leap second. -/
def skipTime? (cs : List Char) : Option (List Char) := do
  let (hour, cs) ← takeDigits? 2 cs
  let cs ← takeChar? ':' cs
  let (minute, cs) ← takeDigits? 2 cs
  if 23 < hour ∨ 59 < minute then none
  else
    match cs with
    | ':' :: cs =>
      let (second, cs) ← takeDigits? 2 cs
      if 60 < second then none else skipSecondFraction? cs
    | cs => some cs

/-- What follows a date. -/
def skipDate? (cs : List Char) : Option (List Char) := do
  let (year, cs) ← takeDigits? 4 cs
  let cs ← takeChar? '-' cs
  let (month, cs) ← takeDigits? 2 cs
  let cs ← takeChar? '-' cs
  let (day, cs) ← takeDigits? 2 cs
  let _ ← Date.ofYmd? year month day
  some cs

/-- An offset from universal time, or nothing. -/
def isOffset : List Char → Bool
  | [] => true
  | ['Z'] => true
  | ['z'] => true
  | sign :: cs =>
    (sign == '+' || sign == '-') &&
      match (takeDigits? 2 cs).bind fun (hour, cs) =>
          (takeChar? ':' cs).bind fun cs => (takeDigits? 2 cs).map fun (minute, cs) =>
            (hour * 60 + minute, minute, cs) with
      | some (total, minute, []) => total ≤ 1440 && minute ≤ 59
      | _ => false

/-- A date, a time of day or both. -/
def isMoment (cs : List Char) : Bool :=
  match skipDate? cs with
  | some [] => true
  | some (mark :: cs) =>
    (mark == 'T' || mark == 't' || mark == ' ') && (skipTime? cs).any isOffset
  | none => skipTime? cs == some []

/-! ## 4. All of them -/

/-- The value of an unquoted text. -/
def scalar? (cs : List Char) : Option Data :=
  if cs = ['t', 'r', 'u', 'e'] then some (.bool true)
  else if cs = ['f', 'a', 'l', 's', 'e'] then some (.bool false)
  else
    match integer? cs with
    | some i => if fits i then some (.int i) else none
    | none =>
      if isFloating cs then some .other
      else if isMoment cs then some (.record [("moment", .text (String.ofList cs))])
      else none

/-- The characters of an unquoted value. -/
def isScalarChar (c : Char) : Bool :=
  c.isAlphanum || c == '_' || c == '-' || c == '+' || c == '.' || c == ':'

/-- An unquoted value, and what follows it.  A blank may stand between a date and a time. -/
def takeScalar? (cs : List Char) : Option (Data × List Char) :=
  let text := cs.takeWhile isScalarChar
  match cs.dropWhile isScalarChar with
  | ' ' :: d :: rest =>
    if d.isDigit ∧ skipDate? text = some [] then
      (scalar? (text ++ ' ' :: d :: rest.takeWhile isScalarChar)).map fun v =>
        (v, rest.dropWhile isScalarChar)
    else (scalar? text).map fun v => (v, ' ' :: d :: rest)
  | rest => (scalar? text).map fun v => (v, rest)

end IrrigationLog.Toml
