/-
# Answers on their way out

An answer is written while the partitions are gone through.  The first write that fails ends the
work at once: nothing is read or written after it, and the failure is that of the answer.

An output may be bounded.  Of a piece that goes beyond the bound it accepts what is within, and
it fails on the next byte, and on every byte after that.

* `Sink.put` writes one piece;
* `LogTree.writeTo` answers a question piece by piece, each written before the next run or point
  is looked at;
* `LogTree.stream` is what comes of that on an empty output.
-/
import IrrigationLog.Query.View

namespace IrrigationLog

open Text Piece

/-! ## 1. Outputs -/

/-- An output. -/
structure Sink where
  /-- What it accepted so far. -/
  written : List UInt8
  /-- How many more bytes it accepts, if it is bounded. -/
  room : Option Nat
  /-- What it says when it fails. -/
  cause : String

/-- An output as a failure left it, and the failure. -/
structure Interrupted where
  sink : Sink
  error : StoreError

namespace Sink

/-- Writes a piece, as far as the output accepts it. -/
def put (s : Sink) (p : Piece) : Except Interrupted Sink :=
  match s.room with
  | none => .ok { s with written := s.written ++ p.bytes }
  | some room =>
    if p.bytes.length ≤ room then
      .ok { s with written := s.written ++ p.bytes, room := some (room - p.bytes.length) }
    else
      .error
        { sink := { s with written := s.written ++ p.bytes.take room, room := some 0 }
          error := p.failure s.cause }

/-- Writes some pieces, one after the other, until one fails. -/
def putAll (s : Sink) : List Piece → Except Interrupted Sink
  | [] => .ok s
  | p :: ps =>
    match s.put p with
    | .ok s => s.putAll ps
    | .error i => .error i

/-- What was written, and whether that failed. -/
def outcome : Except Interrupted Sink → List UInt8 × Except StoreError Unit
  | .ok s => (s.written, .ok ())
  | .error i => (i.sink.written, .error i.error)

end Sink

namespace LogTree

/-! ## 2. The chart -/

/-- Writes bins and their means, of which the first has an index. -/
def writeMeans (index : Nat) (s : Sink) : List (Nat × Int) → Except Interrupted Sink
  | [] => .ok s
  | (bin, mean) :: bins => do
    let s ← s.putAll (commaUnless (index == 0))
    let s ← s.put (plain ('[' :: decimal bin ++ ',' :: signed mean ++ [']']))
    writeMeans (index + 1) s bins

/-- Writes some zones of the chart; `first` says whether there was none before. -/
def writeBins (e : LogTree) (range : DayRange) (grouping : Grouping) (first : Bool) (s : Sink) :
    List UInt8 → Except Interrupted Sink
  | [] => .ok s
  | zone :: zones =>
    match e.zoneBins zone range grouping with
    | .error error => .error ⟨s, error⟩
    | .ok none => e.writeBins range grouping first s zones
    | .ok (some bins) => do
      let s ← s.putAll (commaUnless first)
      let s ← s.put (plain ('"' :: decimal zone.toNat ++ "\":[".toList))
      let s ← writeMeans 0 s bins.bins
      let s ← s.put (plain [']'])
      e.writeBins range grouping false s zones

/-- Writes the chart. -/
def writeChart (e : LogTree) (range : DayRange) (grouping : Grouping) (s : Sink) :
    Except Interrupted Sink :=
  match grouping.bins with
  | none => .error ⟨s, .unsupportedGrouping grouping⟩
  | some _ => do
    let s ← s.put (plain ['\x7b'])
    let s ← e.writeBins range grouping true s e.zoneList
    s.put (plain ['\x7d'])

/-! ## 3. The table -/

/-- Writes the runs of a zone, after a number of its entries was written, and says whether still
no entry of any zone was. -/
def writeEntries (zone : UInt8) (first : Bool) (entries : Nat) (s : Sink) :
    List WateringRun → Except Interrupted (Bool × Sink)
  | [] => do
    let s ← if 0 < entries then s.put (plain [']', '\x7d']) else .ok s
    return (first, s)
  | r :: runs => do
    let s ← if entries = 0 then s.putAll (zoneOpening first zone) else s.put (plain [','])
    let s ← s.put (ofValue (Json.text (tableEntry r)))
    writeEntries zone false (entries + 1) s runs

/-- Writes some zones of the table; `first` says whether no entry was written before. -/
def writeRuns (e : LogTree) (range : DayRange) (first : Bool) (s : Sink) :
    List UInt8 → Except Interrupted Sink
  | [] => .ok s
  | zone :: zones =>
    match e.scanZone zone range with
    | none => e.writeRuns range first s zones
    | some runs => do
      let (first, s) ← writeEntries zone first 0 s runs
      e.writeRuns range first s zones

/-- Writes the table. -/
def writeTable (e : LogTree) (range : DayRange) (s : Sink) : Except Interrupted Sink := do
  let s ← s.put (plain ['['])
  let s ← e.writeRuns range true s e.zoneList
  s.put (plain [']'])

/-! ## 4. The series -/

/-- Writes a point; the mark says whether none was written before. -/
def sendPoint (name : String) : Bool × Sink → SeriesPoint → Except Interrupted (Bool × Sink)
  | (first, s), p => do
    let s ← if first then s.putAll (seriesOpening name) else s.put (plain [','])
    let s ← s.putAll (pointPieces p)
    return (false, s)

/-- Writes the series, by a receiver of its points. -/
def writeSeries (e : LogTree) (kind : Sensor) (id : UInt16) (range : DayRange)
    (summary : Summary) (s : Sink) : Except Interrupted Sink := do
  let s ← s.put (plain "\x7b\"series\":[".toList)
  let ((_, s), emitted) ←
    e.forEachPoint kind id range summary (sendPoint (seriesName kind id)) (true, s)
  let s ← if 0 < emitted then s.put (plain [']', '\x7d']) else .ok s
  s.put (plain [']', '\x7d'])

/-! ## 5. Questions -/

/-- Writes the answer to a question. -/
def writeTo (e : LogTree) : Query → Sink → Except Interrupted Sink
  | .chart range grouping, s => e.writeChart range grouping s
  | .table range, s => e.writeTable range s
  | .series kind id range summary, s => e.writeSeries kind id range summary s

/-- What reaches an output that accepts `room` bytes and then fails with a cause, when the answer
is written while it is made. -/
def stream (t : LogTree) (q : Query) (cause : String) (room : Option Nat) :
    List UInt8 × Except StoreError Unit :=
  Sink.outcome (t.writeTo q ⟨[], room, cause⟩)

end LogTree

end IrrigationLog
