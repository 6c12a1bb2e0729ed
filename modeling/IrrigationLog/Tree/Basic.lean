/-
# Trees of files

A tree is a file with its bytes or a directory with its named entries.  The operations are the
few that the log tree needs: look a path up, make the directories of a path, create or extend
a file, take an entry away.  Each either succeeds or says why it cannot, and then nothing has
changed.

* `Tree.lookup` walks down a path; a missing name and a file in the way are different causes;
* `Tree.alter` replaces what stands at a path, and nothing else;
* `Tree.makeDirs` adds the missing directories of a path;
* `Tree.log`, `Tree.write`, `Tree.remove` are the changes of the program and of its
  surroundings.
-/

namespace IrrigationLog

/-! ## 1. Causes -/

/-- Why a file or directory could not be had. -/
inductive Cause where
  | notFound
  | exists_
  | notDirectory
  | isDirectory
  /-- The bytes of a file that should hold text are no text. -/
  | notText
  deriving DecidableEq

/-- The text shown for a cause. -/
def Cause.message : Cause → String
  | notFound => "No such file or directory (os error 2)"
  | exists_ => "File exists (os error 17)"
  | notDirectory => "Not a directory (os error 20)"
  | isDirectory => "Is a directory (os error 21)"
  | notText => "stream did not contain valid UTF-8"

/-! ## 2. Trees -/

/-- A file or a directory. -/
inductive Tree where
  | file (bytes : List UInt8)
  | dir (entries : List (String × Tree))

namespace Tree

instance : Inhabited Tree := ⟨dir []⟩

/-- Entries with a new value for a name, at its place or at the end. -/
def setEntry (name : String) (t : Tree) : List (String × Tree) → List (String × Tree)
  | [] => [(name, t)]
  | (n, s) :: es => if name == n then (n, t) :: es else (n, s) :: setEntry name t es

/-- Entries without a name. -/
def dropEntry (name : String) (es : List (String × Tree)) : List (String × Tree) :=
  es.filter fun e => e.1 != name

/-- What stands at a path. -/
def lookup : Tree → List String → Except Cause Tree
  | t, [] => .ok t
  | file _, _ :: _ => .error .notDirectory
  | dir es, name :: names =>
    match es.lookup name with
    | none => .error .notFound
    | some t => t.lookup names

/-- What stands at a path, if anything does. -/
def find? (t : Tree) (names : List String) : Option Tree := (t.lookup names).toOption

/-- The bytes of the file at a path, if one is there. -/
def fileAt? (t : Tree) (names : List String) : Option (List UInt8) :=
  match t.find? names with
  | some (file bytes) => some bytes
  | _ => none

/-- Whether a directory stands at a path. -/
def isDir (t : Tree) (names : List String) : Bool :=
  match t.find? names with
  | some (dir _) => true
  | _ => false

/-- Whether anything stands at a path. -/
def occupied (t : Tree) (names : List String) : Bool := (t.find? names).isSome

/-! ## 3. Changes -/

/-- The tree with something new at a path.  The change is told what stands there; the
directories above have to exist. -/
def alter (change : Option Tree → Except Cause Tree) : Tree → List String → Except Cause Tree
  | t, [] => change (some t)
  | file _, _ :: _ => .error .notDirectory
  | dir es, [name] => (change (es.lookup name)).map fun t => dir (setEntry name t es)
  | dir es, name :: names =>
    match es.lookup name with
    | none => .error .notFound
    | some t => (t.alter change names).map fun t => dir (setEntry name t es)

/-- A path of directories around a tree. -/
def nest : List String → Tree
  | [] => dir []
  | name :: names => dir [(name, nest names)]

/-- The tree with all directories of a path, missing ones added.  A file at the path itself
already exists; a file further up is no directory. -/
def makeDirs : Tree → List String → Except Cause Tree
  | dir es, [] => .ok (dir es)
  | file _, [] => .error .exists_
  | file _, _ :: _ => .error .notDirectory
  | dir es, name :: names =>
    match es.lookup name with
    | none => .ok (dir (setEntry name (nest names) es))
    | some t => (t.makeDirs names).map fun t => dir (setEntry name t es)

/-- A file extended at its end; a missing file is created. -/
def extended (more : List UInt8) : Option Tree → Except Cause Tree
  | none => .ok (file more)
  | some (file bytes) => .ok (file (bytes ++ more))
  | some (dir _) => .error .isDirectory

/-- A file with these bytes and no others. -/
def replaced (bytes : List UInt8) : Option Tree → Except Cause Tree
  | some (dir _) => .error .isDirectory
  | _ => .ok (file bytes)

/-- The tree with the file at a path extended. -/
def log (t : Tree) (names : List String) (more : List UInt8) : Except Cause Tree :=
  t.alter (extended more) names

/-- The tree with a file written anew. -/
def write (t : Tree) (names : List String) (bytes : List UInt8) : Except Cause Tree :=
  t.alter (replaced bytes) names

/-- The tree without what stands at a path. -/
def remove : Tree → List String → Tree
  | t, [] => t
  | file bytes, _ :: _ => file bytes
  | dir es, [name] => dir (dropEntry name es)
  | dir es, name :: names =>
    match es.lookup name with
    | none => dir es
    | some t => dir (setEntry name (t.remove names) es)

/-- The text of the file at a path. -/
def readBytes (t : Tree) (names : List String) : Except Cause (List UInt8) :=
  match t.lookup names with
  | .ok (file bytes) => .ok bytes
  | .ok (dir _) => .error .isDirectory
  | .error cause => .error cause

/-! ## 4. Listings -/

/-- Every entry and everything below it, each with its path and, for a file, its bytes. -/
def listEntries (above : List String) :
    List (String × Tree) → List (List String × Option (List UInt8))
  | [] => []
  | (name, file bytes) :: es => (above ++ [name], some bytes) :: listEntries above es
  | (name, dir sub) :: es =>
    (above ++ [name], none) :: (listEntries (above ++ [name]) sub ++ listEntries above es)

/-- Every file and directory below a tree. -/
def listing : Tree → List (List String × Option (List UInt8))
  | file _ => []
  | dir es => listEntries [] es

end Tree

end IrrigationLog
