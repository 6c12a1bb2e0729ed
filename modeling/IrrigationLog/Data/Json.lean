/-
# Structured data as JSON

The compact text of a tree of data, and the reader of JSON texts.

* `Json.text` writes without any white space.  In a text, the quote, the backslash and the
  control characters are escaped, the latter by their short name where they have one;
* `Json.read?` takes every JSON text.  A number with a fraction or an exponent, the number
  `-0`, and a text with an unpaired surrogate denote nothing that the program uses and are
  read as `other`.
-/
import IrrigationLog.Data.Basic
import IrrigationLog.Text.Numeral

namespace IrrigationLog.Json

open Text

/-! ## 1. Writing -/

/-- A digit of base sixteen, in lower case. -/
def hexDigit (n : Nat) : Char := Nat.digitChar n

/-- A character as it stands within quotes. -/
def escaped (c : Char) : List Char :=
  if c = '"' then ['\\', '"']
  else if c = '\\' then ['\\', '\\']
  else if c = '\x08' then ['\\', 'b']
  else if c = '\t' then ['\\', 't']
  else if c = '\n' then ['\\', 'n']
  else if c = '\x0c' then ['\\', 'f']
  else if c = '\r' then ['\\', 'r']
  else if c.toNat < 32 then
    ['\\', 'u', '0', '0', hexDigit (c.toNat / 16), hexDigit (c.toNat % 16)]
  else [c]

/-- A text within quotes. -/
def quoted (cs : List Char) : List Char := '"' :: cs.flatMap escaped ++ ['"']

mutual

/-- The compact text of a tree of data. -/
def text : Data → List Char
  | .null => ['n', 'u', 'l', 'l']
  | .bool true => ['t', 'r', 'u', 'e']
  | .bool false => ['f', 'a', 'l', 's', 'e']
  | .int i => signed i
  | .text s => quoted s.toList
  | .list items => '[' :: itemsText items ++ [']']
  | .record fields => '{' :: fieldsText fields ++ ['}']
  | .other => ['n', 'u', 'l', 'l']

/-- Items with commas between them. -/
def itemsText : List Data → List Char
  | [] => []
  | [d] => text d
  | d :: ds => text d ++ ',' :: itemsText ds

/-- Named fields with commas between them. -/
def fieldsText : List (String × Data) → List Char
  | [] => []
  | [(name, d)] => quoted name.toList ++ ':' :: text d
  | (name, d) :: fs => quoted name.toList ++ ':' :: (text d ++ ',' :: fieldsText fs)

end

/-! ## 2. Reading: lexical elements -/

/-- The white space of JSON. -/
def isSpace (c : Char) : Bool := c == ' ' || c == '\n' || c == '\t' || c == '\r'

/-- The text without white space at its start. -/
def skipSpace (cs : List Char) : List Char := cs.dropWhile isSpace

/-- What follows a word, if the text starts with it. -/
def skipWord? : List Char → List Char → Option (List Char)
  | [], cs => some cs
  | w :: ws, c :: cs => if w = c then skipWord? ws cs else none
  | _ :: _, [] => none

/-- The value of a digit of base sixteen. -/
def hexValue? (c : Char) : Option Nat :=
  if '0' ≤ c ∧ c ≤ '9' then some (c.toNat - '0'.toNat)
  else if 'a' ≤ c ∧ c ≤ 'f' then some (c.toNat - 'a'.toNat + 10)
  else if 'A' ≤ c ∧ c ≤ 'F' then some (c.toNat - 'A'.toNat + 10)
  else none

/-- The value of four digits of base sixteen. -/
def hexUnit? (a b c d : Char) : Option Nat := do
  let a ← hexValue? a
  let b ← hexValue? b
  let c ← hexValue? c
  let d ← hexValue? d
  pure (((a * 16 + b) * 16 + c) * 16 + d)

/-- The character with a short escape. -/
def shortEscape? : Char → Option Char
  | '"' => some '"'
  | '\\' => some '\\'
  | '/' => some '/'
  | 'b' => some '\x08'
  | 'f' => some '\x0c'
  | 'n' => some '\n'
  | 'r' => some '\r'
  | 't' => some '\t'
  | _ => none

/-- The code units up to the closing quote, and what follows it.  A character counts as one
unit, an escape as the unit that it names. -/
def takeUnits? : List Char → Option (List Nat × List Char)
  | [] => none
  | '"' :: cs => some ([], cs)
  | '\\' :: 'u' :: a :: b :: c :: d :: cs => do
    let unit ← hexUnit? a b c d
    let (units, rest) ← takeUnits? cs
    pure (unit :: units, rest)
  | '\\' :: e :: cs => do
    let c ← shortEscape? e
    let (units, rest) ← takeUnits? cs
    pure (c.toNat :: units, rest)
  | ['\\'] => none
  | c :: cs =>
    if c.toNat < 32 then none
    else do
      let (units, rest) ← takeUnits? cs
      pure (c.toNat :: units, rest)

/-- The characters that units denote; surrogates have to come in pairs. -/
def joinUnits? : List Nat → Option (List Char)
  | [] => some []
  | [n] => if 0xd800 ≤ n ∧ n ≤ 0xdfff then none else some [Char.ofNat n]
  | n :: m :: ns =>
    if 0xd800 ≤ n ∧ n ≤ 0xdbff ∧ 0xdc00 ≤ m ∧ m ≤ 0xdfff then
      (joinUnits? ns).map (Char.ofNat ((n - 0xd800) * 1024 + (m - 0xdc00) + 0x10000) :: ·)
    else if 0xd800 ≤ n ∧ n ≤ 0xdfff then none
    else (joinUnits? (m :: ns)).map (Char.ofNat n :: ·)

/-- A run of at least one digit, and what follows it. -/
def takeRun? (cs : List Char) : Option (List Char × List Char) :=
  match cs.takeWhile Char.isDigit with
  | [] => none
  | ds => some (ds, cs.dropWhile Char.isDigit)

/-- What follows a fraction; the text itself if it does not start with one. -/
def skipFraction? : List Char → Option (List Char)
  | '.' :: cs => (takeRun? cs).map Prod.snd
  | cs => some cs

/-- What follows an exponent; the text itself if it does not start with one. -/
def skipExponent? : List Char → Option (List Char)
  | 'e' :: '+' :: cs | 'e' :: '-' :: cs | 'E' :: '+' :: cs | 'E' :: '-' :: cs | 'e' :: cs
  | 'E' :: cs => (takeRun? cs).map Prod.snd
  | cs => some cs

/-- A number without a sign, and what follows it. -/
def takeNumber? (negative : Bool) (cs : List Char) : Option (Data × List Char) := do
  let (ds, rest) ← takeRun? cs
  if ds.head? = some '0' ∧ ds ≠ ['0'] then none
  else
    let after ← (skipFraction? rest).bind skipExponent?
    let n := Nat.ofDigitChars 10 ds 0
    if after.length ≠ rest.length ∨ (negative ∧ n = 0) then pure (.other, after)
    else pure (.int (if negative then -(n : Int) else n), after)

/-! ## 3. Reading: values -/

mutual

/-- A value at the start of a text, and what follows it.  The first argument bounds the depth
of the reading. -/
def takeValue? : Nat → List Char → Option (Data × List Char)
  | 0, _ => none
  | n + 1, cs =>
    match skipSpace cs with
    | 'n' :: cs => (skipWord? ['u', 'l', 'l'] cs).map fun rest => (.null, rest)
    | 't' :: cs => (skipWord? ['r', 'u', 'e'] cs).map fun rest => (.bool true, rest)
    | 'f' :: cs => (skipWord? ['a', 'l', 's', 'e'] cs).map fun rest => (.bool false, rest)
    | '"' :: cs =>
      (takeUnits? cs).map fun (units, rest) =>
        (((joinUnits? units).map fun t => Data.text (String.ofList t)).getD .other, rest)
    | '[' :: cs =>
      match skipSpace cs with
      | ']' :: rest => some (.list [], rest)
      | cs => (takeItems? n cs).map fun (items, rest) => (.list items, rest)
    | '{' :: cs =>
      match skipSpace cs with
      | '}' :: rest => some (.record [], rest)
      | cs =>
        (takeFields? n cs).map fun (fields, rest) =>
          ((fields.map Data.record).getD .other, rest)
    | '-' :: cs => takeNumber? true cs
    | cs => takeNumber? false cs

/-- The items up to the closing bracket. -/
def takeItems? : Nat → List Char → Option (List Data × List Char)
  | 0, _ => none
  | n + 1, cs => do
    let (d, cs) ← takeValue? n cs
    match skipSpace cs with
    | ']' :: rest => pure ([d], rest)
    | ',' :: cs =>
      let (ds, rest) ← takeItems? n cs
      pure (d :: ds, rest)
    | _ => none

/-- The fields up to the closing brace; without a result when a name is no text. -/
def takeFields? : Nat → List Char → Option (Option (List (String × Data)) × List Char)
  | 0, _ => none
  | n + 1, cs =>
    match skipSpace cs with
    | '"' :: cs => do
      let (units, cs) ← takeUnits? cs
      let cs ← skipWord? [':'] (skipSpace cs)
      let (d, cs) ← takeValue? n cs
      let field := (joinUnits? units).map fun name => (String.ofList name, d)
      match skipSpace cs with
      | '}' :: rest => pure (field.map ([·]), rest)
      | ',' :: cs =>
        let (fields, rest) ← takeFields? n cs
        pure (field.bind fun f => fields.map (f :: ·), rest)
      | _ => none
    | _ => none

end

/-- The data of a JSON text. -/
def read? (cs : List Char) : Option Data :=
  match takeValue? (2 * cs.length + 2) cs with
  | some (d, rest) => if skipSpace rest = [] then some d else none
  | none => none

end IrrigationLog.Json
