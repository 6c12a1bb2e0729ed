/-
# Written dates and times

Three written forms are in use.

* **Typed.**  An operator types a date as `YYYY-MM-DD` and a date-time as that, one blank or
  one `T`, and `HH:MM` or `HH:MM:SS`.  The year has four digits after an optional sign, all
  other parts have two.  White space around the whole is let go (`Date.parse?`,
  `DateTime.parse?`).
* **Shown.**  The counters are shown with the time of their last rollover as
  `YYYY-MM-DD H:MM:SS.F`: the hour is not padded, and the fraction of the second has as many
  digits as it needs, at least one.  A year below zero carries a minus sign in front of its
  four digits (`DateTime.shown`).
* **Numbered.**  In structured data a date-time is the list of its year, its day number in
  the year, hour, minute, second and nanosecond (`DateTime.parts`, `DateTime.ofOrdinalParts?`).
-/
import IrrigationLog.Calendar.DateTime
import IrrigationLog.Text.Blank
import IrrigationLog.Text.Numeral

namespace IrrigationLog

open Text

/-! ## 1. Reading fixed-width parts -/

/-- The number made of the next `n` characters, all digits, and what follows them. -/
def takeDigits? (n : Nat) (cs : List Char) : Option (Nat × List Char) :=
  let ds := cs.take n
  if ds.length = n ∧ ds.all Char.isDigit then some (Nat.ofDigitChars 10 ds 0, cs.drop n)
  else none

/-- What follows a given character, if the text starts with it. -/
def takeChar? (c : Char) : List Char → Option (List Char)
  | [] => none
  | d :: cs => if d = c then some cs else none

/-- A four-digit year after an optional sign. -/
def takeYear? : List Char → Option (Int × List Char)
  | '+' :: cs => (takeDigits? 4 cs).map fun (y, rest) => (Int.ofNat y, rest)
  | '-' :: cs => (takeDigits? 4 cs).map fun (y, rest) => (-(y : Int), rest)
  | cs => (takeDigits? 4 cs).map fun (y, rest) => (Int.ofNat y, rest)

/-! ## 2. Dates -/

/-- A date at the start of a text, and what follows it. -/
def takeDate? (cs : List Char) : Option (Date × List Char) := do
  let (year, cs) ← takeYear? cs
  let cs ← takeChar? '-' cs
  let (month, cs) ← takeDigits? 2 cs
  let cs ← takeChar? '-' cs
  let (day, cs) ← takeDigits? 2 cs
  let date ← Date.ofYmd? year month day
  pure (date, cs)

/-- Reads a typed date. -/
def Date.parse? (text : List Char) : Option Date :=
  match takeDate? (trim text) with
  | some (date, []) => some date
  | _ => none

/-! ## 3. Date-times -/

/-- A whole text of the form `HH:MM` or `HH:MM:SS`. -/
def TimeOfDay.parse? (cs : List Char) : Option TimeOfDay := do
  let (hour, cs) ← takeDigits? 2 cs
  let cs ← takeChar? ':' cs
  let (minute, cs) ← takeDigits? 2 cs
  match cs with
  | [] => ofParts? hour minute 0 0
  | _ :: _ =>
    let cs ← takeChar? ':' cs
    let (second, cs) ← takeDigits? 2 cs
    match cs with
    | [] => ofParts? hour minute second 0
    | _ :: _ => none

/-- The first `T` of a text read as a blank. -/
def blankFirstT : List Char → List Char
  | [] => []
  | 'T' :: cs => ' ' :: cs
  | c :: cs => c :: blankFirstT cs

/-- Reads a typed date-time. -/
def DateTime.parse? (text : List Char) : Option DateTime := do
  let (date, cs) ← takeDate? (blankFirstT (trim text))
  let cs ← takeChar? ' ' cs
  let time ← TimeOfDay.parse? cs
  pure ⟨date, time⟩

/-! ## 4. What is said of other texts -/

/-- What is said of a text that is no typed date. -/
def Date.refusal (text : String) : String := s!"Invalid date '{text}'. Use YYYY-MM-DD"

/-- What is said of a text that is no typed date-time. -/
def DateTime.refusal (text : String) : String :=
  s!"Invalid date/time '{text}'. Use YYYY-MM-DD HH:MM[:SS]"

/-! ## 5. The shown form -/

/-- A year in four digits, with a minus sign in front when it is below zero. -/
def shownYear : Int → List Char
  | .ofNat y => padded 4 y
  | .negSucc y => '-' :: padded 4 (y + 1)

/-- A date in the form `YYYY-MM-DD`. -/
def Date.shown (d : Date) : List Char :=
  shownYear d.year ++ '-' :: padded 2 d.month ++ '-' :: padded 2 d.day

/-- The digits of a fraction of a second, without zeros at the end but for a first one. -/
def shownFraction (nanosecond : Nat) : List Char :=
  match trimEndWhile (· == '0') (padded 9 nanosecond) with
  | [] => ['0']
  | ds => ds

/-- A time of day in the form `H:MM:SS.F`. -/
def TimeOfDay.shown (t : TimeOfDay) : List Char :=
  decimal t.hour ++ ':' :: padded 2 t.minute ++ ':' :: padded 2 t.second ++
    '.' :: shownFraction t.nanosecond

/-- A date-time in the form `YYYY-MM-DD H:MM:SS.F`. -/
def DateTime.shown (t : DateTime) : List Char := t.date.shown ++ ' ' :: t.time.shown

/-! ## 6. The numbered form -/

/-- Year, day number in the year, hour, minute, second and nanosecond. -/
def DateTime.parts (t : DateTime) : List Int :=
  [t.date.year, t.date.ordinal, t.time.hour, t.time.minute, t.time.second, t.time.nanosecond]

/-- The date-time with the given year, day number in the year and time of day. -/
def DateTime.ofOrdinalParts? (year : Int) (ordinal hour minute second nanosecond : Nat) :
    Option DateTime := do
  let date ← Date.ofOrdinal? year ordinal
  let time ← TimeOfDay.ofParts? hour minute second nanosecond
  pure ⟨date, time⟩

end IrrigationLog
