/-
# Changes from outside

The log tree is not alone on its disk.  Files appear in it, grow and vanish, and directories
are made, without the log book having a part in it.  A change from outside makes the
directories that it needs.
-/
import IrrigationLog.Tree.Basic

namespace IrrigationLog

/-- A change that is made to a tree from outside. -/
inductive TreeChange where
  /-- A file is written anew. -/
  | write (names : List String) (bytes : List UInt8)
  /-- A file is extended, or created. -/
  | extend (names : List String) (bytes : List UInt8)
  | makeDirs (names : List String)
  /-- A file, or a directory with all that is in it, is taken away. -/
  | remove (names : List String)

/-- The tree after a change from outside. -/
def Tree.change (t : Tree) : TreeChange → Except Cause Tree
  | .write names bytes => (t.makeDirs names.dropLast).bind fun t => t.write names bytes
  | .extend names bytes => (t.makeDirs names.dropLast).bind fun t => t.log names bytes
  | .makeDirs names => t.makeDirs names
  | .remove names => (t.lookup names).map fun _ => t.remove names

end IrrigationLog
