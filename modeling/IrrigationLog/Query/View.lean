/-
# The three views

A query engine answers three questions about a log tree, each with one document.

* **Chart**: the mean durations per bin, for every zone with a run in the range, as
  `"zone":[[bin,mean],…]` in one object;
* **table**: every run in the range, per zone, in file order, as a list of objects with the
  zone and its entries;
* **series**: the points of a sensor under its name; without any point the list of series is
  empty.

Zones come in ascending order, and a zone without a run in the range is not mentioned.

A document is written while the partitions are gone through, so that what opens a part of it,
and the comma before it, wait for the first run or point of that part.

A `Query` is one of the three questions; `LogTree.answer` is its document and
`LogTree.writeAnswer` what reaches an output of limited size.
-/
import IrrigationLog.Data.Form
import IrrigationLog.Data.Json
import IrrigationLog.Query.Bins
import IrrigationLog.Query.Output
import IrrigationLog.Query.Series

namespace IrrigationLog

open Text Piece

/-- The comma before a group of pieces, unless it is the first. -/
def commaUnless (first : Bool) : List Piece := if first then [] else [plain [',']]

namespace LogTree

/-! ## 1. The chart -/

/-- The bins of a zone; none if no run matched. -/
def zoneBins (e : LogTree) (zone : UInt8) (range : DayRange) (grouping : Grouping) :
    Except StoreError (Option ZoneBins) := do
  let bins ← ZoneBins.empty zone grouping
  match e.scanZone zone range with
  | none => pure none
  | some runs =>
    let bins := runs.foldl ZoneBins.add bins
    pure (if 0 < bins.matched then some bins else none)

/-- The pieces of bins and their means, of which the first has an index. -/
def meansPieces (index : Nat) : List (Nat × Int) → List Piece
  | [] => []
  | (bin, mean) :: bins =>
    commaUnless (index == 0) ++
      plain ('[' :: decimal bin ++ ',' :: signed mean ++ [']']) :: meansPieces (index + 1) bins

/-- The pieces of one zone in the chart. -/
def binsPieces (b : ZoneBins) : List Piece :=
  plain ('"' :: decimal b.zone.toNat ++ "\":[".toList) ::
    meansPieces 0 b.bins ++ [plain [']']]

/-- The pieces of some zones in the chart; `first` says whether there was none before. -/
def chartPieces (e : LogTree) (range : DayRange) (grouping : Grouping) (first : Bool) :
    List UInt8 → Except StoreError (List Piece)
  | [] => pure []
  | zone :: zones => do
    match ← e.zoneBins zone range grouping with
    | none => e.chartPieces range grouping first zones
    | some bins =>
      let rest ← e.chartPieces range grouping false zones
      pure (commaUnless first ++ binsPieces bins ++ rest)

/-- The chart, in pieces. -/
def chart (e : LogTree) (range : DayRange) (grouping : Grouping) :
    Except StoreError (List Piece) :=
  match grouping.bins with
  | none => .error (.unsupportedGrouping grouping)
  | some _ => do
    let zones ← e.chartPieces range grouping true e.zoneList
    pure (plain ['{'] :: zones ++ [plain ['}']])

/-! ## 2. The table -/

/-- The entry of a run in the table. -/
def tableEntry (r : WateringRun) : Data :=
  .record
    [("date", .int r.start.epochSeconds), ("duration", .int r.duration.toNat),
      ("schedule", .int r.schedule.toNat), ("seasonal", .int r.seasonal.toInt),
      ("wunderground", .int r.weather.toInt)]

/-- What comes before the first entry of a zone. -/
def zoneOpening (first : Bool) (zone : UInt8) : List Piece :=
  commaUnless first ++
    [plain ("\x7b\"zone\":".toList ++ decimal zone.toNat ++ ",\"entries\":[".toList)]

/-- The pieces of the runs of a zone, after a number of its entries was written. -/
def entriesPieces (first : Bool) (zone : UInt8) (entries : Nat) : List WateringRun → List Piece
  | [] => if 0 < entries then [plain [']', '}']] else []
  | r :: runs =>
    (if entries = 0 then zoneOpening first zone else [plain [',']]) ++
      ofValue (Json.text (tableEntry r)) :: entriesPieces first zone (entries + 1) runs

/-- The pieces of some zones in the table; `first` says whether no entry was written before. -/
def tablePieces (e : LogTree) (range : DayRange) (first : Bool) : List UInt8 → List Piece
  | [] => []
  | zone :: zones =>
    match e.scanZone zone range with
    | none => e.tablePieces range first zones
    | some runs =>
      entriesPieces first zone 0 runs ++ e.tablePieces range (first && runs.isEmpty) zones

/-- The table, in pieces. -/
def table (e : LogTree) (range : DayRange) : List Piece :=
  plain ['['] :: e.tablePieces range true e.zoneList ++ [plain [']']]

/-! ## 3. The series -/

/-- The name of a sensor's series. -/
def seriesName (kind : Sensor) (id : UInt16) : String :=
  s!"{kind.title} readings, Sensor: {id.toNat}"

/-- The pieces of one point. -/
def pointPieces (p : SeriesPoint) : List Piece :=
  [plain ('[' :: signed p.epochMillis ++ ',' :: signed p.value.toInt ++ [']'])]

/-- What comes before the first point of a series. -/
def seriesOpening (name : String) : List Piece :=
  [plain "\x7b\"name\":".toList, ofValue (Json.text (.text name)), plain ",\"data\":[".toList]

/-- Takes a point after the pieces written before, if any point was. -/
def writePoint (name : String) (written : Option (List Piece)) (p : SeriesPoint) :
    Except StoreError (Option (List Piece)) :=
  match written with
  | none => .ok (some (seriesOpening name ++ pointPieces p))
  | some pieces => .ok (some (pieces ++ plain [','] :: pointPieces p))

/-- The series, in pieces. -/
def series (e : LogTree) (kind : Sensor) (id : UInt16) (range : DayRange)
    (summary : Summary) : Except StoreError (List Piece) := do
  let (written, emitted) ←
    e.forEachPoint kind id range summary (writePoint (seriesName kind id)) none
  pure (plain "\x7b\"series\":[".toList :: written.getD [] ++
    (if 0 < emitted then [plain [']', '}']] else []) ++ [plain [']', '}']])

end LogTree

/-! ## 4. Questions and answers -/

/-- A question about a log tree. -/
inductive Query where
  | chart (range : DayRange) (grouping : Grouping)
  | table (range : DayRange)
  | series (kind : Sensor) (id : UInt16) (range : DayRange) (summary : Summary)
  deriving DecidableEq

namespace LogTree

/-- The document that answers a question, in pieces. -/
def answer (e : LogTree) : Query → Except StoreError (List Piece)
  | .chart range grouping => e.chart range grouping
  | .table range => .ok (e.table range)
  | .series kind id range summary => e.series kind id range summary

/-- What of an answer reaches an output that accepts `room` bytes and then fails with a
cause; without a bound the output accepts everything. -/
def writeAnswer (t : LogTree) (q : Query) (cause : String) (room : Option Nat) :
    List UInt8 × Except StoreError Unit :=
  match t.answer q, room with
  | .error e, _ => ([], .error e)
  | .ok pieces, none => (document pieces, .ok ())
  | .ok pieces, some room => deliver cause room pieces

end LogTree

end IrrigationLog
