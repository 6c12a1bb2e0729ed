/-
# Quoted text in settings files

A text can be quoted in four ways: within single or triple marks, which are double quotes with
escapes or single quotes without.

The writer takes the first way that needs no escape, in the order basic, literal, basic on
several lines, literal on several lines.  A tab may stand in any of them, but within double
quotes it is written by its escape.  A text that needs escapes whatever the way is written
within double quotes, on several lines if it has line feeds.  A text with line feeds starts on
a line of its own: the first line feed after the opening marks does not belong to it.

* `quoted` writes;
* `takeQuoted?` reads at the start of a text and gives what follows.
-/
import IrrigationLog.Data.Json

namespace IrrigationLog.Toml

/-! ## 1. Which way -/

/-- The ways of quoting. -/
inductive Quoting where
  | basic
  | literal
  | multiBasic
  | multiLiteral
  deriving DecidableEq

/-- The single quote. -/
def apostrophe : Char := '\x27'

/-- A control character that has no place in a quoted text; tab and line feed are none. -/
def isControl (c : Char) : Bool := (c.toNat < 32 && c != '\t' && c != '\n') || c == '\x7f'

/-- The length of the longest run of a character. -/
def longestRun (q : Char) : List Char → Nat
  | [] => 0
  | c :: cs => max ((c :: cs).takeWhile (· == q)).length (longestRun q cs)

/-- The way in which a text is quoted. -/
def quotingOf (cs : List Char) : Quoting :=
  let control := cs.any isControl
  let newline := cs.contains '\n'
  let escape := cs.contains '\\'
  if !control && !escape && !newline && longestRun '"' cs = 0 then .basic
  else if !control && !newline && longestRun apostrophe cs = 0 then .literal
  else if !control && !escape && longestRun '"' cs ≤ 2 then .multiBasic
  else if !control && longestRun apostrophe cs ≤ 2 then .multiLiteral
  else if newline then .multiBasic
  else .basic

/-! ## 2. Writing -/

/-- A digit of base sixteen, in upper case. -/
def upperHexDigit (n : Nat) : Char := (Json.hexDigit n).toUpper

/-- A character other than a quote as it stands within double quotes. -/
def escapedChar (multi : Bool) (c : Char) : List Char :=
  if c = '\x08' then ['\\', 'b']
  else if c = '\t' then ['\\', 't']
  else if c = '\n' then if multi then ['\n'] else ['\\', 'n']
  else if c = '\x0c' then ['\\', 'f']
  else if c = '\r' then ['\\', 'r']
  else if c = '\\' then ['\\', '\\']
  else if isControl c then
    ['\\', 'u', '0', '0', upperHexDigit (c.toNat / 16), upperHexDigit (c.toNat % 16)]
  else [c]

/-- A text within double quotes.  On several lines two quotes in a row may stand as they are;
the first argument counts those that do. -/
def basicBody (multi : Bool) : Nat → List Char → List Char
  | _, [] => []
  | n, c :: cs =>
    if c = '"' then
      if multi ∧ n < 2 then '"' :: basicBody multi (n + 1) cs
      else '\\' :: '"' :: basicBody multi 0 cs
    else escapedChar multi c ++ basicBody multi 0 cs

/-- The line feed after the opening marks of a text with line feeds. -/
def leadingNewline (cs : List Char) : List Char := if cs.contains '\n' then ['\n'] else []

/-- A quoted text. -/
def quoted (cs : List Char) : List Char :=
  match quotingOf cs with
  | .basic => '"' :: basicBody false 0 cs ++ ['"']
  | .literal => apostrophe :: cs ++ [apostrophe]
  | .multiBasic =>
    List.replicate 3 '"' ++ leadingNewline cs ++ basicBody true 0 cs ++ List.replicate 3 '"'
  | .multiLiteral =>
    List.replicate 3 apostrophe ++ leadingNewline cs ++ cs ++ List.replicate 3 apostrophe

/-! ## 3. Reading within double quotes -/

/-- The character with a short escape. -/
def shortEscape? : Char → Option Char
  | 'b' => some '\x08'
  | 't' => some '\t'
  | 'n' => some '\n'
  | 'f' => some '\x0c'
  | 'r' => some '\r'
  | 'e' => some '\x1b'
  | '"' => some '"'
  | '\\' => some '\\'
  | _ => none

/-- The character whose number is written in base sixteen. -/
def charOfHex? (ds : List Char) : Option Char := do
  let n ← (← ds.mapM Json.hexValue?).foldlM (fun n d => some (n * 16 + d)) 0
  if n.isValidChar then some (Char.ofNat n) else none

/-- The text up to the closing quote on the same line, and what follows it. -/
def takeBasic? : List Char → Option (List Char × List Char)
  | [] => none
  | '"' :: cs => some ([], cs)
  | '\\' :: 'x' :: a :: b :: cs => do
    let c ← charOfHex? [a, b]
    let (text, rest) ← takeBasic? cs
    pure (c :: text, rest)
  | '\\' :: 'u' :: a :: b :: c :: d :: cs => do
    let c ← charOfHex? [a, b, c, d]
    let (text, rest) ← takeBasic? cs
    pure (c :: text, rest)
  | '\\' :: 'U' :: a :: b :: c :: d :: e :: f :: g :: h :: cs => do
    let c ← charOfHex? [a, b, c, d, e, f, g, h]
    let (text, rest) ← takeBasic? cs
    pure (c :: text, rest)
  | '\\' :: e :: cs => do
    let c ← shortEscape? e
    let (text, rest) ← takeBasic? cs
    pure (c :: text, rest)
  | c :: cs =>
    if c = '\\' ∨ c = '\n' ∨ isControl c then none
    else do
      let (text, rest) ← takeBasic? cs
      pure (c :: text, rest)

/-- Whether nothing but blanks stands before the end of the line. -/
def restOfLineBlank (cs : List Char) : Bool :=
  match cs.dropWhile fun c => c == ' ' || c == '\t' with
  | '\n' :: _ => true
  | '\r' :: '\n' :: _ => true
  | _ => false

/-- What is left of a text after three closing marks: up to two more of them belong to it. -/
def closing (q : Char) : List Char → List Char × List Char
  | a :: b :: cs =>
    if a = q ∧ b = q then ([q, q], cs) else if a = q then ([q], b :: cs) else ([], a :: b :: cs)
  | [a] => if a = q then ([q], []) else ([], [a])
  | [] => ([], [])

/-- The text up to three closing quotes, and what follows them.  While `skipping`, white space
is left out: a backslash at the end of a line takes away what comes before the next word. -/
def takeMultiBasic? : Bool → List Char → Option (List Char × List Char)
  | _, [] => none
  | _, '"' :: '"' :: '"' :: cs => some (closing '"' cs)
  | _, '\\' :: 'x' :: a :: b :: cs => do
    let c ← charOfHex? [a, b]
    let (text, rest) ← takeMultiBasic? false cs
    pure (c :: text, rest)
  | _, '\\' :: 'u' :: a :: b :: c :: d :: cs => do
    let c ← charOfHex? [a, b, c, d]
    let (text, rest) ← takeMultiBasic? false cs
    pure (c :: text, rest)
  | _, '\\' :: 'U' :: a :: b :: c :: d :: e :: f :: g :: h :: cs => do
    let c ← charOfHex? [a, b, c, d, e, f, g, h]
    let (text, rest) ← takeMultiBasic? false cs
    pure (c :: text, rest)
  | _, '\\' :: e :: cs =>
    if restOfLineBlank (e :: cs) then takeMultiBasic? true (e :: cs)
    else do
      let c ← shortEscape? e
      let (text, rest) ← takeMultiBasic? false cs
      pure (c :: text, rest)
  | skipping, '\r' :: '\n' :: cs =>
    if skipping then takeMultiBasic? true cs
    else do
      let (text, rest) ← takeMultiBasic? false cs
      pure ('\r' :: '\n' :: text, rest)
  | skipping, c :: cs =>
    if c = '\\' ∨ isControl c then none
    else if skipping ∧ (c = ' ' ∨ c = '\t' ∨ c = '\n') then takeMultiBasic? true cs
    else do
      let (text, rest) ← takeMultiBasic? false cs
      pure (c :: text, rest)

/-! ## 4. Reading within single quotes -/

/-- The text up to the closing quote on the same line, and what follows it. -/
def takeLiteral? (cs : List Char) : Option (List Char × List Char) :=
  let plain := fun c => c != apostrophe && c != '\n' && !isControl c
  match cs.dropWhile plain with
  | c :: rest => if c = apostrophe then some (cs.takeWhile plain, rest) else none
  | [] => none

/-- The text up to three closing quotes, and what follows them. -/
def takeMultiLiteral? : List Char → Option (List Char × List Char)
  | [] => none
  | '\x27' :: '\x27' :: '\x27' :: cs => some (closing apostrophe cs)
  | '\r' :: '\n' :: cs => do
    let (text, rest) ← takeMultiLiteral? cs
    pure ('\r' :: '\n' :: text, rest)
  | c :: cs =>
    if isControl c then none
    else do
      let (text, rest) ← takeMultiLiteral? cs
      pure (c :: text, rest)

/-! ## 5. Reading -/

/-- A text without a line end at its start. -/
def dropNewline : List Char → List Char
  | '\n' :: cs => cs
  | '\r' :: '\n' :: cs => cs
  | cs => cs

/-- A text quoted on one line, and what follows it. -/
def takeLineQuoted? : List Char → Option (List Char × List Char)
  | '"' :: cs => takeBasic? cs
  | '\x27' :: cs => takeLiteral? cs
  | _ => none

/-- A quoted text, and what follows it. -/
def takeQuoted? : List Char → Option (List Char × List Char)
  | '"' :: '"' :: '"' :: cs => takeMultiBasic? false (dropNewline cs)
  | '\x27' :: '\x27' :: '\x27' :: cs => takeMultiLiteral? (dropNewline cs)
  | cs => takeLineQuoted? cs

end IrrigationLog.Toml
