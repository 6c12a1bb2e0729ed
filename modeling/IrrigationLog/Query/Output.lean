/-
# Query output

A query writes its document in pieces, as it goes along.  A piece is either plain or a value
handed to the writer of structured data.  The difference shows when the output fails: the
failure is reported as one of serialisation within such a value and as one of output
elsewhere.

An output may accept a limited number of bytes.  Then everything up to the limit is written,
to the byte, and the first write of at least one byte beyond it fails.

* `document`: the bytes of a complete output;
* `deliver`: what reaches an output of limited size, and the failure if there is one.
-/
import IrrigationLog.Error
import IrrigationLog.Text.Utf8

namespace IrrigationLog

/-- How a piece is written. -/
inductive PieceKind where
  | plain
  /-- By the writer of structured data. -/
  | value
  deriving DecidableEq

/-- A piece of a document. -/
structure Piece where
  kind : PieceKind
  text : List Char
  deriving DecidableEq

namespace Piece

/-- A plain piece. -/
def plain (text : List Char) : Piece := ⟨.plain, text⟩

/-- A piece written as a value. -/
def ofValue (text : List Char) : Piece := ⟨.value, text⟩

/-- The bytes of a piece. -/
def bytes (p : Piece) : List UInt8 := Utf8.encode p.text

/-- The failure of the output within a piece. -/
def failure (cause : String) (p : Piece) : StoreError :=
  match p.kind with
  | .plain => .output cause
  | .value => .serialization cause

/-- The bytes of all pieces. -/
def document (ps : List Piece) : List UInt8 := ps.flatMap bytes

/-- What reaches an output that accepts `room` bytes and then fails with a cause. -/
def deliver (cause : String) (room : Nat) : List Piece → List UInt8 × Except StoreError Unit
  | [] => ([], .ok ())
  | p :: ps =>
    if p.bytes.length ≤ room then
      let (written, result) := deliver cause (room - p.bytes.length) ps
      (p.bytes ++ written, result)
    else (p.bytes.take room, .error (p.failure cause))

end Piece

end IrrigationLog
