/-
# Structured data

Records, settings and query output are exchanged as structured data: a tree of lists and named
fields over numbers, truth values and texts.  A field name may occur more than once; what that
means is for the reader of the data to say.

Documents may hold values that no reader of this program takes: a number with a fraction, a
text that is no sequence of characters.  They are kept as `other`, so that a reader can pass
over them without knowing what they were.
-/

namespace IrrigationLog

/-- A tree of structured data. -/
inductive Data where
  | null
  | bool (b : Bool)
  | int (i : Int)
  | text (s : String)
  | list (items : List Data)
  | record (fields : List (String × Data))
  /-- A well-formed value that no reader takes. -/
  | other

namespace Data

instance : Inhabited Data := ⟨null⟩

/-- A list of numbers. -/
def ints (is : List Int) : Data := list (is.map int)

end Data

end IrrigationLog
