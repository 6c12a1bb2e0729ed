/-
# Settings files

A settings file is a TOML document: lines of pairs, `key = value`, under headers that name the
table to which they belong.

* `Document.text` writes the documents of this program: pairs at the top, then tables of pairs
  with an empty line before each; a list of two or more numbers has a line for every number;
* `read?` reads every TOML document as structured data, in which white space, comments and the
  ways of writing a value are lost.
-/
import IrrigationLog.Data.Toml.Quoted
import IrrigationLog.Data.Toml.Scalar
import IrrigationLog.Data.Toml.Table

namespace IrrigationLog.Toml

open Text

/-! ## 1. Writing -/

/-- A value as this program writes it. -/
inductive Item where
  | number (i : Int)
  | text (s : String)
  | numbers (is : List Int)
  deriving DecidableEq

/-- Pairs of a key and a value. -/
abbrev Pairs := List (String × Item)

/-- A document as this program writes it. -/
structure Document where
  top : Pairs
  tables : List (String × Pairs)
  deriving DecidableEq

/-- A value in a document. -/
def Item.written : Item → List Char
  | .number i => signed i
  | .text s => quoted s.toList
  | .numbers [] => ['[', ']']
  | .numbers [i] => '[' :: signed i ++ [']']
  | .numbers is =>
    '[' :: '\n' :: (is.flatMap fun i => List.replicate 4 ' ' ++ signed i ++ [',', '\n']) ++ [']']

/-- A line for every pair. -/
def pairLines (pairs : Pairs) : List Char :=
  pairs.flatMap fun (key, item) => key.toList ++ [' ', '=', ' '] ++ item.written ++ ['\n']

/-- The text of a document. -/
def Document.text (d : Document) : List Char :=
  pairLines d.top ++
    d.tables.flatMap fun (name, pairs) =>
      ['\n', '['] ++ name.toList ++ [']', '\n'] ++ pairLines pairs

/-- The data that a value stands for. -/
def Item.toData : Item → Data
  | .number i => .int i
  | .text s => .text s
  | .numbers is => .ints is

/-- The data that pairs stand for. -/
def pairsData (pairs : Pairs) : List (String × Data) :=
  pairs.map fun (key, item) => (key, item.toData)

/-- The data that a document stands for. -/
def Document.toData (d : Document) : Data :=
  .record (pairsData d.top ++ d.tables.map fun (name, pairs) => (name, .record (pairsData pairs)))

/-! ## 2. Reading: white space, comments and keys -/

/-- The text without blanks at its start. -/
def skipBlanks (cs : List Char) : List Char := cs.dropWhile fun c => c == ' ' || c == '\t'

/-- The text without blanks, line ends and comments at its start.  The first argument says
whether the text starts within a comment. -/
def skipFiller? : Bool → List Char → Option (List Char)
  | _, [] => some []
  | _, '\r' :: '\n' :: cs => skipFiller? false cs
  | comment, c :: cs =>
    if c = '\n' then skipFiller? false cs
    else if comment then if isControl c then none else skipFiller? true cs
    else if c = ' ' ∨ c = '\t' then skipFiller? false cs
    else if c = '#' then skipFiller? true cs
    else some (c :: cs)

/-- Whether nothing but a comment stands before the end of the line. -/
def endsLine (cs : List Char) : Bool :=
  match skipBlanks cs with
  | [] => true
  | '\n' :: _ => true
  | '\r' :: '\n' :: _ => true
  | '#' :: _ => true
  | _ => false

/-- The characters of a bare key. -/
def isKeyChar (c : Char) : Bool := c.isAlphanum || c == '_' || c == '-'

/-- A key without dots, bare or quoted, and what follows it. -/
def takeSimpleKey? (cs : List Char) : Option (String × List Char) :=
  match cs.takeWhile isKeyChar with
  | [] => (takeLineQuoted? cs).map fun (name, rest) => (String.ofList name, rest)
  | name => some (String.ofList name, cs.dropWhile isKeyChar)

/-- Keys with dots between them, and what follows them.  The first argument bounds their
number. -/
def takeKeys? : Nat → List Char → Option (List String × List Char)
  | 0, _ => none
  | n + 1, cs => do
    let (name, cs) ← takeSimpleKey? (skipBlanks cs)
    match skipBlanks cs with
    | '.' :: cs =>
      let (names, cs) ← takeKeys? n cs
      pure (name :: names, cs)
    | cs => pure ([name], cs)

/-- A key, dotted or not, and what follows it and the blanks after it. -/
def takeKey? (cs : List Char) : Option (Key × List Char) := do
  let (names, rest) ← takeKeys? (cs.length + 1) cs
  let name ← names.getLast?
  pure (⟨names.dropLast, name⟩, rest)

/-! ## 3. Reading: values -/

mutual

/-- A value at the start of a text, and what follows it.  The first argument bounds the depth
of the reading. -/
def takeValue? : Nat → List Char → Option (Node × List Char)
  | 0, _ => none
  | n + 1, cs =>
    match cs with
    | '[' :: cs => (takeItems? n cs).map fun (items, rest) => (.value (.list items), rest)
    | '{' :: cs => (takePairs? n [] cs).map fun (entries, rest) => (.table .inline entries, rest)
    | '"' :: _ | '\x27' :: _ =>
      (takeQuoted? cs).map fun (t, rest) => (.value (.text (String.ofList t)), rest)
    | cs => (takeScalar? cs).map fun (d, rest) => (.value d, rest)

/-- The items up to the closing bracket. -/
def takeItems? : Nat → List Char → Option (List Data × List Char)
  | 0, _ => none
  | n + 1, cs => do
    match ← skipFiller? false cs with
    | ']' :: rest => pure ([], rest)
    | cs =>
      let (node, cs) ← takeValue? n cs
      match ← skipFiller? false cs with
      | ']' :: rest => pure ([node.toData], rest)
      | ',' :: cs =>
        let (items, rest) ← takeItems? n cs
        pure (node.toData :: items, rest)
      | _ => none

/-- The entries with those added that come before the closing brace. -/
def takePairs? : Nat → Entries → List Char → Option (Entries × List Char)
  | 0, _, _ => none
  | n + 1, entries, cs => do
    match ← skipFiller? false cs with
    | '}' :: rest => pure (entries, rest)
    | cs =>
      let (key, cs) ← takeKey? cs
      let cs ← takeChar? '=' cs
      let (node, cs) ← takeValue? n (skipBlanks cs)
      let entries ← addPair key node .header entries
      match ← skipFiller? false cs with
      | '}' :: rest => pure (entries, rest)
      | ',' :: cs => takePairs? n entries cs
      | _ => none

end

/-! ## 4. Reading: lines -/

/-- A line that says something. -/
inductive Line where
  | pair (key : Key) (node : Node)
  | header (key : Key)
  | itemHeader (key : Key)

/-- A line at the start of a text, and what follows it. -/
def takeLine? (cs : List Char) : Option (Line × List Char) :=
  match cs with
  | '[' :: '[' :: cs => do
    let (key, cs) ← takeKey? cs
    let cs ← takeChar? ']' cs
    let cs ← takeChar? ']' cs
    pure (.itemHeader key, cs)
  | '[' :: cs => do
    let (key, cs) ← takeKey? cs
    let cs ← takeChar? ']' cs
    pure (.header key, cs)
  | cs => do
    let (key, cs) ← takeKey? cs
    let cs ← takeChar? '=' cs
    let cs := skipBlanks cs
    let (node, cs) ← takeValue? (2 * cs.length + 2) cs
    pure (.pair key node, cs)

/-- The lines of a text.  The first argument bounds their number. -/
def takeLines? : Nat → List Char → Option (List Line)
  | 0, _ => none
  | n + 1, cs => do
    match ← skipFiller? false cs with
    | [] => pure []
    | cs =>
      let (line, cs) ← takeLine? cs
      if endsLine cs then
        let lines ← takeLines? n cs
        pure (line :: lines)
      else none

/-! ## 5. Reading: documents -/

/-- The header under which pairs are being gathered. -/
inductive Section where
  | top
  | table (key : Key)
  | item (key : Key)

/-- A document half read: the tables that are in place, and the one being filled. -/
structure Draft where
  placed : Entries
  under : Section
  filling : Entries

namespace Draft

/-- A document of which nothing is read. -/
def empty : Draft := ⟨[], .top, []⟩

/-- All tables, with the one being filled in its place. -/
def close? (d : Draft) : Option Entries :=
  match d.under with
  | .top => some d.filling
  | .table key => placeTable key d.filling d.placed
  | .item key => placeItem key d.filling d.placed

/-- The draft after one more line. -/
def add? (d : Draft) : Line → Option Draft
  | .pair key node => (addPair key node .header d.filling).map fun filling => { d with filling }
  | .header key => do
    let placed ← d.close?
    let filling ← openTable? key placed
    pure ⟨placed, .table key, filling⟩
  | .itemHeader key => d.close?.map fun placed => ⟨placed, .item key, []⟩

end Draft

/-- The data of a TOML document.  A byte order mark at its start does not count. -/
def read? (cs : List Char) : Option Data := do
  let cs := if cs.head? = some '\ufeff' then cs.tail else cs
  let lines ← takeLines? (cs.length + 1) cs
  let draft ← lines.foldlM Draft.add? Draft.empty
  let entries ← draft.close?
  pure (.record (entriesData entries))

end IrrigationLog.Toml
