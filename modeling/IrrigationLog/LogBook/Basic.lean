/-
# The log book

The log book is a log tree at work: the tree itself, where its root stands, the settings of
the station, the clock that stamps its records, the limits on event chunks, and whether it is
ready.  Nothing is written before the directories of all categories have been set up, and
nothing after the book was closed; queries need neither.

* `LogBook.setUp` makes the missing directories and says which was the first that could not
  be made; it goes on after a failure, and the book is ready if there was none;
* `LogBook.append` adds a line to a partition, or says why it did not, and then the tree is
  as it was; only a disk that fails within what is written leaves a beginning of it.
-/
import IrrigationLog.Clock
import IrrigationLog.Event.Limits
import IrrigationLog.Partition.Key
import IrrigationLog.Query.View
import IrrigationLog.Tree.Fault
import IrrigationLog.WaterCounter

namespace IrrigationLog

/-- A log tree at work. -/
structure LogBook where
  tree : Tree
  root : Path
  station : Station := {}
  clock : Clock
  limits : EventLimits := .standard
  ready : Bool := false
  /-- How the disk fails within what a recording writes, if it does. -/
  fault : Option WriteFault := none

namespace LogBook

/-- The time by the clock of the book. -/
def now (b : LogBook) : DateTime := b.clock.now

/-- The running water counters. -/
def counters (b : LogBook) : WaterCounter := .ofStation b.station

/-- The tree as a query sees it. -/
def logTree (b : LogBook) : LogTree := ⟨b.tree, b.root, b.station.numberOfZones⟩

/-! ## 1. Setting up and closing -/

/-- Makes the directory of a category, unless it is there. -/
def makeCategory (root : Path) (t : Tree) (c : Category) : Except StoreError Tree :=
  let path := Partition.directory root c
  if t.isDir path.names then .ok t
  else
    match t.makeDirs path.names with
    | .ok t => .ok t
    | .error cause => .error (.createDirectory path cause)

/-- Makes the directories of some categories as far as possible, and tells the first failure. -/
def makeCategories (root : Path) (t : Tree) : List Category → Tree × Option StoreError
  | [] => (t, none)
  | c :: cs =>
    match makeCategory root t c with
    | .ok t => makeCategories root t cs
    | .error e => ((makeCategories root t cs).1, some e)

/-- Makes the directories of all categories; the book is ready if all are there. -/
def setUp (b : LogBook) : LogBook × Except StoreError Unit :=
  match makeCategories b.root b.tree Category.all with
  | (tree, none) => ({ b with tree, ready := true }, .ok ())
  | (tree, some e) => ({ b with tree, ready := false }, .error e)

/-- Stops writing. -/
def close (b : LogBook) : LogBook := { b with ready := false }

/-! ## 2. Adding a line -/

/-- What is to be written for a line: a partition that is not there yet gets its header first. -/
def entry (b : LogBook) (p : Partition) (line : List Char) : List UInt8 :=
  (if b.tree.occupied (p.path b.root).names then [] else Utf8.encode p.header) ++ Utf8.encode line

/-- The bytes that the disk takes, and the failure to take all of them. -/
def written (b : LogBook) (bytes : List UInt8) : List UInt8 × Except StoreError Unit :=
  match WriteFault.taken b.fault bytes with
  | (bytes, none) => (bytes, .ok ())
  | (part, some cause) => (part, .error (.output cause))

/-- Adds a line to a partition; a new partition starts with its header. -/
def append (b : LogBook) (p : Partition) (line : List Char) : LogBook × Except StoreError Unit :=
  let path := p.path b.root
  if b.ready then
    let (bytes, result) := b.written (b.entry p line)
    match b.tree.log path.names bytes with
    | .ok tree => ({ b with tree }, result)
    | .error cause => (b, .error (.openFile path cause))
  else (b, .error .notReady)

end LogBook

end IrrigationLog
