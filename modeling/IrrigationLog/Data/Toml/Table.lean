/-
# Tables of settings

A settings file fills tables with entries, each under a path of keys.  How a table came about
decides what may still be added to it:

* a table opened by a **header** takes the pairs that follow the header, and is opened once;
* a table **implied** on the way to another header may still get a header of its own;
* a table opened by a **dotted** key takes further dotted keys, but no header;
* an **inline** table is closed;
* a list of tables takes further tables, and what is addressed to it goes to its last one.

No key is ever given a second value.
-/
import IrrigationLog.Data.Basic

namespace IrrigationLog.Toml

/-- How a table came about. -/
inductive TableKind where
  | header
  | implied
  | dotted
  | inline
  deriving DecidableEq

/-- What a key stands for. -/
inductive Node where
  | value (d : Data)
  | table (kind : TableKind) (entries : List (String × Node))
  | tables (items : List Node)

/-- The entries of a table. -/
abbrev Entries := List (String × Node)

/-! ## 1. As data -/

mutual

/-- The data of a node. -/
def Node.toData : Node → Data
  | .value d => d
  | .table _ entries => .record (entriesData entries)
  | .tables items => .list (itemsData items)

/-- The fields of a table. -/
def entriesData : List (String × Node) → List (String × Data)
  | [] => []
  | (key, node) :: entries => (key, node.toData) :: entriesData entries

/-- The items of a list of tables. -/
def itemsData : List Node → List Data
  | [] => []
  | node :: nodes => node.toData :: itemsData nodes

end

/-! ## 2. Going down a path -/

/-- Entries with a new node for a key, at its place or at the end. -/
def Entries.put (key : String) (node : Node) : Entries → Entries
  | [] => [(key, node)]
  | (k, n) :: entries =>
    if k = key then (k, node) :: entries else (k, n) :: Entries.put key node entries

/-- The entries with a change made to the table at a path.  Missing tables are opened on the
way, dotted ones for a dotted key and implied ones for a header; a dotted key passes through
no table that has a header, and nothing passes through a value or an inline table. -/
def within (dotted : Bool) (change : TableKind → Entries → Option Entries) :
    List String → TableKind → Entries → Option Entries
  | [], kind, entries => change kind entries
  | key :: keys, _, entries =>
    match entries.lookup key with
    | none =>
      let kind := if dotted then .dotted else .implied
      (within dotted change keys kind []).map fun sub => entries.put key (.table kind sub)
    | some (.table kind sub) =>
      if kind = .inline ∨ (dotted ∧ kind = .header) then none
      else (within dotted change keys kind sub).map fun sub => entries.put key (.table kind sub)
    | some (.tables items) =>
      match items.getLast? with
      | some (.table kind sub) =>
        (within dotted change keys kind sub).map fun sub =>
          entries.put key (.tables (items.dropLast ++ [.table kind sub]))
      | _ => none
    | some (.value _) => none

/-- What stands at a path. -/
def nodeAt? : List String → Entries → Option Node
  | [], _ => none
  | [key], entries => entries.lookup key
  | key :: keys, entries =>
    match entries.lookup key with
    | some (.table _ sub) => nodeAt? keys sub
    | some (.tables items) =>
      match items.getLast? with
      | some (.table _ sub) => nodeAt? keys sub
      | _ => none
    | _ => none

/-! ## 3. Pairs -/

/-- A key behind a path of keys; the path is empty unless the key is dotted. -/
structure Key where
  path : List String
  name : String
  deriving DecidableEq

/-- The entries with a pair added.  A dotted key adds to dotted tables only, and a plain key to
any other. -/
def addPair (key : Key) (node : Node) (kind : TableKind) (entries : Entries) : Option Entries :=
  within (!key.path.isEmpty)
    (fun kind entries =>
      if (kind = .dotted ↔ key.path ≠ []) ∧ (entries.lookup key.name).isNone then
        some (entries.put key.name node)
      else none)
    key.path kind entries

/-! ## 4. Headers -/

/-- The table of a header when the header comes: what was implied before, or nothing.  There
is none if the table was opened otherwise. -/
def openTable? (key : Key) (top : Entries) : Option Entries :=
  match nodeAt? (key.path ++ [key.name]) top with
  | none => some []
  | some (.table .implied entries) => some entries
  | some _ => none

/-- Puts the table of a header in its place. -/
def placeTable (key : Key) (table : Entries) (top : Entries) : Option Entries :=
  within false (fun _ entries => some (entries.put key.name (.table .header table))) key.path
    .header top

/-- Adds a table to the list of tables of a header. -/
def placeItem (key : Key) (table : Entries) (top : Entries) : Option Entries :=
  within false
    (fun _ entries =>
      match entries.lookup key.name with
      | none => some (entries.put key.name (.tables [.table .header table]))
      | some (.tables items) =>
        some (entries.put key.name (.tables (items ++ [.table .header table])))
      | some _ => none)
    key.path .header top

end IrrigationLog.Toml
