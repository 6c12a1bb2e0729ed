/-
# What the documents of queries say

A document is written in pieces while partitions are gone through, and the commas and brackets
between the pieces depend on what was written before.  This module says what comes out: the
JSON text of one value, the **view** of the tree that the question asked for.

* The table lists the zones with a run in the range, each with all its runs (`tableView`): what is
  told of a run is written out here (`runRecord`), and so are the zones that come into question.
* The chart has the same zones, each with its bins (`chartView`): a zone has bins exactly if it
  has a run in the range (`zoneBins_eq`), since every run falls into a bin.
* The series has all points that a receiver is fed, or nothing at all (`seriesView`).  Its name and
  the milliseconds of its points are written out, too (`seriesHeading`, `pointPair`).

`LogTree.exists_answer` is the text of the pieces, and `LogTree.writeAnswer_view` what a program
reads that got the whole document.
-/
import IrrigationLog.Proofs.JsonText
import IrrigationLog.Proofs.SeriesPoints
import IrrigationLog.Query.View

namespace IrrigationLog

open Text Piece

/-! ## 1. The text of pieces -/

/-- The text of all pieces. -/
def textOf (ps : List Piece) : List Char := ps.flatMap Piece.text

@[simp]
theorem textOf_nil : textOf [] = [] := rfl

@[simp]
theorem textOf_cons (p : Piece) (ps : List Piece) : textOf (p :: ps) = p.text ++ textOf ps := rfl

@[simp]
theorem textOf_append (ps qs : List Piece) : textOf (ps ++ qs) = textOf ps ++ textOf qs := by
  simp [textOf]

@[simp]
theorem text_plain (cs : List Char) : (plain cs).text = cs := rfl

@[simp]
theorem text_ofValue (cs : List Char) : (ofValue cs).text = cs := rfl

/-- The bytes of a document are those of its text. -/
theorem document_eq (ps : List Piece) : document ps = Utf8.encode (textOf ps) := by
  induction ps with
  | nil => rfl
  | cons p ps ih =>
    rw [textOf_cons, Utf8.encode_append, ← ih]
    rfl

/-- An output that never failed got everything. -/
theorem document_of_deliver {cause : String} {room : Nat} {ps : List Piece} {bytes : List UInt8}
    (h : deliver cause room ps = (bytes, .ok ())) : bytes = document ps := by
  induction ps generalizing room bytes with
  | nil =>
    cases h
    rfl
  | cons p ps ih =>
    unfold deliver at h
    split at h
    · rcases hrest : deliver cause (room - p.bytes.length) ps with ⟨written, result⟩
      rw [hrest] at h
      cases h
      rw [ih hrest]
      rfl
    · cases h

/-! ## 2. Commas -/

/-- Texts with a comma before each, unless it is the first. -/
def separated (first : Bool) : List (List Char) → List Char
  | [] => []
  | cs :: css => textOf (commaUnless first) ++ cs ++ separated false css

theorem itemsText_eq (ds : List Data) :
    Json.itemsText ds = separated true (ds.map Json.text) := by
  induction ds with
  | nil => rfl
  | cons d ds ih =>
    cases ds with
    | nil => simp [Json.itemsText, separated, commaUnless]
    | cons e es =>
      rw [Json.itemsText_cons_cons, ih]
      simp [separated, commaUnless]

/-- The text of a field. -/
def fieldText (f : String × Data) : List Char :=
  Json.quoted f.1.toList ++ ':' :: Json.text f.2

theorem fieldsText_eq (fs : List (String × Data)) :
    Json.fieldsText fs = separated true (fs.map fieldText) := by
  induction fs with
  | nil => rfl
  | cons f fs ih =>
    cases fs with
    | nil => simp [Json.fieldsText, separated, commaUnless, fieldText]
    | cons g gs =>
      rw [Json.fieldsText_cons_cons, ih]
      simp [separated, commaUnless, fieldText]

theorem text_list (ds : List Data) :
    Json.text (.list ds) = '[' :: separated true (ds.map Json.text) ++ [']'] := by
  rw [Json.text, itemsText_eq]

theorem text_record (fs : List (String × Data)) :
    Json.text (.record fs) = '\x7b' :: separated true (fs.map fieldText) ++ ['\x7d'] := by
  rw [Json.text, fieldsText_eq]

/-- Two numbers in brackets. -/
theorem text_pair (i j : Int) :
    Json.text (.ints [i, j]) = '[' :: signed i ++ ',' :: signed j ++ [']'] := by
  simp [Data.ints, Json.text, Json.itemsText]

/-- A decimal numeral needs no escapes. -/
theorem quoted_decimal (n : Nat) : Json.quoted (decimal n) = '"' :: decimal n ++ ['"'] := by
  have hdigit (c : Char) (hc : c.isDigit = true) : Json.escaped c = [c] := by
    unfold Json.escaped
    have hnot : ∀ d : Char, d.isDigit = false → c ≠ d := by
      rintro d hd rfl
      rw [hc] at hd
      cases hd
    have hlow : ¬c.toNat < 32 := by
      have hzero : '0'.toNat = 48 := rfl
      have := (Char.isDigit_iff_toNat.mp hc).1
      omega
    rw [if_neg (hnot _ rfl), if_neg (hnot _ rfl), if_neg (hnot _ rfl), if_neg (hnot _ rfl),
      if_neg (hnot _ rfl), if_neg (hnot _ rfl), if_neg (hnot _ rfl), if_neg hlow]
  have hall : ∀ cs : List Char, (∀ c ∈ cs, c.isDigit = true) →
      cs.flatMap Json.escaped = cs := by
    intro cs hcs
    induction cs with
    | nil => rfl
    | cons c cs ih =>
      rw [List.flatMap_cons, hdigit c (hcs c List.mem_cons_self),
        ih fun d hd => hcs d (List.mem_cons_of_mem _ hd)]
      rfl
  rw [Json.quoted, hall _ fun c hc => isDigit_of_mem_decimal hc]

/-! ## 3. Bins -/

/-- **Every start of a run has a bin**, if the grouping has any. -/
theorem Grouping.exists_binOf {grouping : Grouping} {n : Nat} (h : grouping.bins = some n)
    (start : DateTime) : ∃ i, grouping.binOf start = some i ∧ i < n := by
  cases grouping with
  | hourly =>
    cases h
    exact ⟨_, rfl, start.time.hour_lt⟩
  | daily =>
    cases h
    exact ⟨_, rfl, start.date.weekday.isLt⟩
  | monthly =>
    cases h
    have := start.date.month_bounds
    exact ⟨_, rfl, by omega⟩
  | numeric => cases h

namespace ZoneBins

/-- As many slots as the grouping has bins. -/
def Fits (b : ZoneBins) : Prop := b.grouping.bins = some b.slots.length

/-- Bins without a run. -/
def fresh (zone : UInt8) (grouping : Grouping) (n : Nat) : ZoneBins :=
  ⟨zone, grouping, List.replicate n {}, 0⟩

theorem empty_eq {grouping : Grouping} {n : Nat} (h : grouping.bins = some n) (zone : UInt8) :
    empty zone grouping = .ok (fresh zone grouping n) := by
  rw [empty, h]
  rfl

@[simp]
theorem grouping_fresh (zone : UInt8) (grouping : Grouping) (n : Nat) :
    (fresh zone grouping n).grouping = grouping := rfl

@[simp]
theorem slots_fresh (zone : UInt8) (grouping : Grouping) (n : Nat) :
    (fresh zone grouping n).slots = List.replicate n {} := rfl

@[simp]
theorem matched_fresh (zone : UInt8) (grouping : Grouping) (n : Nat) :
    (fresh zone grouping n).matched = 0 := rfl

/-- Fresh bins have as many slots as their grouping says. -/
theorem fits_fresh {grouping : Grouping} {n : Nat} (h : grouping.bins = some n) (zone : UInt8) :
    (fresh zone grouping n).Fits := by
  rw [Fits, slots_fresh, List.length_replicate]
  exact h

/-- **Every run falls into a bin.** -/
theorem Fits.add {b : ZoneBins} (h : b.Fits) (r : WateringRun) :
    (b.add r).Fits ∧ (b.add r).matched = b.matched + 1 := by
  obtain ⟨i, hi, hlt⟩ := Grouping.exists_binOf h r.start
  unfold ZoneBins.add Fits
  rw [hi]
  dsimp only
  rw [if_pos hlt]
  exact ⟨by rw [List.length_modify]; exact h, rfl⟩

theorem Fits.foldl_add {b : ZoneBins} (h : b.Fits) (runs : List WateringRun) :
    (runs.foldl ZoneBins.add b).matched = b.matched + runs.length := by
  induction runs generalizing b with
  | nil => rfl
  | cons r runs ih =>
    rw [List.foldl_cons, ih (h.add r).1, (h.add r).2, List.length_cons]
    omega

/-- Fresh bins have taken as many runs as they were given. -/
theorem matched_foldl_fresh {grouping : Grouping} {n : Nat} (h : grouping.bins = some n)
    (zone : UInt8) (runs : List WateringRun) :
    (runs.foldl ZoneBins.add (fresh zone grouping n)).matched = runs.length := by
  rw [(fits_fresh h zone).foldl_add, matched_fresh, Nat.zero_add]

/-- Bins stay those of their zone. -/
theorem zone_foldl_add (b : ZoneBins) (runs : List WateringRun) :
    (runs.foldl ZoneBins.add b).zone = b.zone := by
  induction runs generalizing b with
  | nil => rfl
  | cons r runs ih =>
    rw [List.foldl_cons, ih]
    unfold ZoneBins.add
    split
    · split <;> rfl
    · rfl

end ZoneBins

namespace LogTree

variable {t : LogTree} {range : DayRange} {grouping : Grouping}

/-- The runs of a zone in a range, if there is one. -/
def runsOf? (t : LogTree) (range : DayRange) (zone : UInt8) :
    Option (UInt8 × List WateringRun) :=
  match t.scanZone zone range with
  | some (r :: runs) => some (zone, r :: runs)
  | _ => none

/-- **A zone has bins exactly if it has a run in the range.** -/
theorem zoneBins_eq (t : LogTree) (range : DayRange) {n : Nat} (h : grouping.bins = some n)
    (zone : UInt8) :
    t.zoneBins zone range grouping = .ok ((t.runsOf? range zone).map fun z =>
      z.2.foldl ZoneBins.add (.fresh zone grouping n)) := by
  unfold zoneBins runsOf?
  rw [ZoneBins.empty_eq h]
  cases hscan : t.scanZone zone range with
  | none => rfl
  | some runs =>
    change Except.ok _ = _
    rw [ZoneBins.matched_foldl_fresh h]
    cases runs with
    | nil => rfl
    | cons r runs =>
      rw [if_pos (by rw [List.length_cons]; omega)]
      rfl

/-- A zone has no run in the range and no bins, or it has both, and the bins are its own. -/
theorem zoneBins_cases (t : LogTree) (range : DayRange) {n : Nat} (h : grouping.bins = some n)
    (zone : UInt8) :
    (t.runsOf? range zone = none ∧ t.zoneBins zone range grouping = .ok none) ∨
    ∃ z b, t.runsOf? range zone = some z ∧ t.zoneBins zone range grouping = .ok (some b) ∧
      b.zone = zone := by
  have hbins := t.zoneBins_eq range h zone
  cases hruns : t.runsOf? range zone with
  | none =>
    rw [hruns] at hbins
    exact Or.inl ⟨rfl, hbins⟩
  | some z =>
    rw [hruns] at hbins
    exact Or.inr ⟨z, _, rfl, hbins, ZoneBins.zone_foldl_add _ z.2⟩

/-! ## 4. The views -/

/-- The zones from the first to the last of a number of zones. -/
def zonesUpTo (n : UInt8) : List UInt8 := (List.range' 1 n.toNat).map .ofNat

theorem zoneList_eq (t : LogTree) : t.zoneList = zonesUpTo t.zones := by
  rw [zoneList, zonesUpTo, List.range'_eq_map_range, List.map_map]
  exact List.map_congr_left fun n _ => congrArg UInt8.ofNat (Nat.add_comm n 1)

/-- The zones with a run in the range, in order, and all their runs in it, in file order. -/
def zonesWithRuns (t : LogTree) (range : DayRange) : List (UInt8 × List WateringRun) :=
  (zonesUpTo t.zones).filterMap (t.runsOf? range)

/-- What the table tells of a run: when it started, in seconds since 1970-01-01 00:00:00, and the
four numbers that were recorded with it. -/
def runRecord (r : WateringRun) : Data :=
  .record
    [("date", .int r.start.epochSeconds), ("duration", .int r.duration.toNat),
      ("schedule", .int r.schedule.toNat), ("seasonal", .int r.seasonal.toInt),
      ("wunderground", .int r.weather.toInt)]

theorem tableEntry_eq (r : WateringRun) : tableEntry r = runRecord r := rfl

/-- A zone in the table. -/
def zoneRecord (z : UInt8 × List WateringRun) : Data :=
  .record [("zone", .int z.1.toNat), ("entries", .list (z.2.map runRecord))]

/-- What the table says. -/
def tableView (t : LogTree) (range : DayRange) : Data :=
  .list ((t.zonesWithRuns range).map zoneRecord)

/-- The bins of a zone that hold a run, with their means. -/
def means (t : LogTree) (range : DayRange) (grouping : Grouping) (zone : UInt8) :
    List (Nat × Int) :=
  match t.zoneBins zone range grouping with
  | .ok (some b) => b.bins
  | _ => []

/-- Bins and means as pairs. -/
def meansList (bins : List (Nat × Int)) : Data := .list (bins.map fun b => .ints [b.1, b.2])

/-- A zone in the chart. -/
def zoneField (t : LogTree) (range : DayRange) (grouping : Grouping) (zone : UInt8) :
    String × Data :=
  (String.ofList (decimal zone.toNat), meansList (t.means range grouping zone))

/-- What the chart says. -/
def chartView (t : LogTree) (range : DayRange) (grouping : Grouping) : Data :=
  .record ((t.zonesWithRuns range).map fun z => t.zoneField range grouping z.1)

/-- A point of a series: its time in milliseconds since 1970-01-01 00:00:00, and its value. -/
def pointPair (p : SeriesPoint) : Data := .ints [1000 * p.time.epochSeconds, p.value.toInt]

theorem ints_epochMillis (p : SeriesPoint) :
    Data.ints [p.epochMillis, p.value.toInt] = pointPair p := by
  rw [SeriesPoint.epochMillis, Int.mul_comm, pointPair]

/-- The points of a series under its name; without any there is no series. -/
def seriesOf (name : String) (points : List SeriesPoint) : List Data :=
  if points = [] then []
  else [.record [("name", .text name), ("data", .list (points.map pointPair))]]

/-- The name of a series: what was read, and the number of the sensor. -/
def seriesHeading (id : UInt16) : Sensor → String
  | .temperature => s!"Temperature readings, Sensor: {id.toNat}"
  | .pressure => s!"Air Pressure readings, Sensor: {id.toNat}"
  | .humidity => s!"Humidity readings, Sensor: {id.toNat}"
  | .waterflow => s!"Waterflow readings, Sensor: {id.toNat}"

theorem seriesName_eq (kind : Sensor) (id : UInt16) :
    seriesName kind id = seriesHeading id kind := by
  cases kind <;> rfl

/-- What the series says. -/
def seriesView (t : LogTree) (kind : Sensor) (id : UInt16) (range : DayRange)
    (summary : Summary) : Data :=
  .record [("series", .list
    (seriesOf (seriesHeading id kind) (t.seriesPoints kind id range summary)))]

/-- What the answer to a question says. -/
def view (t : LogTree) : Query → Data
  | .chart range grouping => t.chartView range grouping
  | .table range => t.tableView range
  | .series kind id range summary => t.seriesView kind id range summary

/-! ## 5. The pieces of the views -/

theorem textOf_meansPieces (index : Nat) (bins : List (Nat × Int)) :
    textOf (meansPieces index bins) = separated (index == 0)
      ((bins.map fun b => Data.ints [b.1, b.2]).map Json.text) := by
  induction bins generalizing index with
  | nil => rfl
  | cons b bins ih =>
    have hpair : Json.text (.ints [(b.1 : Int), b.2])
        = '[' :: decimal b.1 ++ ',' :: signed b.2 ++ [']'] := text_pair _ _
    rw [meansPieces, textOf_append, textOf_cons, ih, List.map_cons, List.map_cons, separated,
      hpair]
    simp

theorem textOf_binsPieces (b : ZoneBins) :
    textOf (binsPieces b) =
      fieldText (String.ofList (decimal b.zone.toNat), meansList b.bins) := by
  unfold binsPieces fieldText meansList
  dsimp only
  have hname : (String.ofList (decimal b.zone.toNat)).toList = decimal b.zone.toNat :=
    String.toList_ofList
  rw [text_list, hname, quoted_decimal]
  simp [textOf_meansPieces]

/-- The runs of a zone are those of the one that was asked for, and not none. -/
theorem exists_of_runsOf? {zone : UInt8} {z : UInt8 × List WateringRun}
    (h : t.runsOf? range zone = some z) : ∃ r runs, z = (zone, r :: runs) := by
  unfold runsOf? at h
  split at h
  · cases h
    exact ⟨_, _, rfl⟩
  · cases h

/-- The zone of some runs is the one that was asked for. -/
theorem fst_of_runsOf? {zone : UInt8} {z : UInt8 × List WateringRun}
    (h : t.runsOf? range zone = some z) : z.1 = zone := by
  obtain ⟨r, runs, rfl⟩ := exists_of_runsOf? h
  rfl

/-- **The zones of the chart**, whatever was written before. -/
theorem exists_chartPieces (t : LogTree) (range : DayRange) {n : Nat}
    (h : grouping.bins = some n) (first : Bool) (zones : List UInt8) :
    ∃ ps, t.chartPieces range grouping first zones = .ok ps ∧
      textOf ps = separated first (((zones.filterMap (t.runsOf? range)).map fun z =>
        t.zoneField range grouping z.1).map fieldText) := by
  induction zones generalizing first with
  | nil => exact ⟨[], rfl, rfl⟩
  | cons zone zones ih =>
    rcases t.zoneBins_cases range h zone with ⟨hruns, hbins⟩ | ⟨z, b, hruns, hbins, hzone⟩
    · obtain ⟨ps, hps, htext⟩ := ih first
      refine ⟨ps, ?_, ?_⟩
      · rw [chartPieces, hbins]
        exact hps
      · rw [List.filterMap_cons_none hruns, htext]
    · obtain ⟨ps, hps, htext⟩ := ih false
      refine ⟨commaUnless first ++ binsPieces b ++ ps, ?_, ?_⟩
      · rw [chartPieces, hbins]
        change (t.chartPieces range grouping false zones).bind _ = _
        rw [hps]
        rfl
      · have hmeans : t.means range grouping zone = b.bins := by
          unfold means
          rw [hbins]
        rw [List.filterMap_cons_some hruns, List.map_cons, List.map_cons, separated,
          textOf_append, textOf_append, textOf_binsPieces, htext, fst_of_runsOf? hruns, zoneField,
          hmeans, hzone]

/-- A zone of the table, once an entry of it was written. -/
theorem textOf_entriesPieces_succ (first : Bool) (zone : UInt8) (entries : Nat)
    (runs : List WateringRun) :
    textOf (entriesPieces first zone (entries + 1) runs) =
      separated false ((runs.map runRecord).map Json.text) ++ [']', '}'] := by
  induction runs generalizing entries with
  | nil => rfl
  | cons r runs ih =>
    rw [entriesPieces, tableEntry_eq, textOf_append, textOf_cons, ih, List.map_cons, List.map_cons,
      separated, if_neg (Nat.succ_ne_zero entries)]
    simp [commaUnless]

/-- **A zone of the table**, whatever was written before. -/
theorem textOf_entriesPieces (first : Bool) (zone : UInt8) (r : WateringRun)
    (runs : List WateringRun) :
    textOf (entriesPieces first zone 0 (r :: runs)) =
      textOf (commaUnless first) ++ Json.text (zoneRecord (zone, r :: runs)) := by
  have hzone : Json.quoted "zone".toList = "\"zone\"".toList := by decide
  have hentries : Json.quoted "entries".toList = "\"entries\"".toList := by decide
  have hnumber : Json.text (.int zone.toNat) = decimal zone.toNat := by
    rw [Json.text]
    rfl
  rw [entriesPieces, tableEntry_eq, textOf_append, textOf_cons, textOf_entriesPieces_succ,
    if_pos rfl]
  unfold zoneRecord zoneOpening
  rw [text_record]
  simp only [List.map_cons, List.map_nil, separated, fieldText, hzone, hentries, hnumber, text_list]
  simp [commaUnless]

/-- A zone without a run in the range leaves nothing in the table. -/
theorem tablePieces_cons (first : Bool) (zone : UInt8) (zones : List UInt8) :
    t.tablePieces range first (zone :: zones) =
      match t.runsOf? range zone with
      | none => t.tablePieces range first zones
      | some z => entriesPieces first zone 0 z.2 ++ t.tablePieces range false zones := by
  rw [tablePieces]
  unfold runsOf?
  cases t.scanZone zone range with
  | none => rfl
  | some runs =>
    cases runs with
    | nil =>
      dsimp only
      rw [List.isEmpty_nil, Bool.and_true]
      rfl
    | cons r runs =>
      dsimp only
      rw [List.isEmpty_cons, Bool.and_false]

/-- **The zones of the table**, whatever was written before. -/
theorem textOf_tablePieces (first : Bool) (zones : List UInt8) :
    textOf (t.tablePieces range first zones) =
      separated first (((zones.filterMap (t.runsOf? range)).map zoneRecord).map Json.text) := by
  induction zones generalizing first with
  | nil => rfl
  | cons zone zones ih =>
    rw [tablePieces_cons]
    cases hruns : t.runsOf? range zone with
    | none =>
      rw [List.filterMap_cons_none hruns]
      exact ih first
    | some z =>
      obtain ⟨r, runs, rfl⟩ := exists_of_runsOf? hruns
      rw [List.filterMap_cons_some hruns, textOf_append, textOf_entriesPieces, ih]
      rfl

/-- What a receiver wrote that had written something before. -/
theorem feed_writePoint (name : String) (pieces : List Piece) (points : List SeriesPoint) :
    feed (writePoint name) (some pieces) points =
      .ok (some (pieces ++ points.flatMap fun p => plain [','] :: pointPieces p)) := by
  induction points generalizing pieces with
  | nil => simp [feed]
  | cons p points ih =>
    rw [feed, writePoint]
    dsimp only
    rw [ih, List.flatMap_cons, List.append_assoc]

theorem textOf_pointPieces (p : SeriesPoint) :
    textOf (pointPieces p) = Json.text (pointPair p) := by
  rw [← ints_epochMillis, text_pair]
  simp [pointPieces]

theorem textOf_laterPoints (points : List SeriesPoint) :
    textOf (points.flatMap fun p => plain [','] :: pointPieces p) =
      separated false ((points.map pointPair).map Json.text) := by
  induction points with
  | nil => rfl
  | cons p points ih =>
    rw [List.flatMap_cons, textOf_append, textOf_cons, textOf_pointPieces, ih, List.map_cons,
      List.map_cons, separated]
    simp [commaUnless]

/-- **The pieces of a series**: a receiver that wrote nothing has no points. -/
theorem exists_series (t : LogTree) (kind : Sensor) (id : UInt16) (range : DayRange)
    (summary : Summary) :
    ∃ ps, t.series kind id range summary = .ok ps ∧
      textOf ps = Json.text (t.seriesView kind id range summary) := by
  unfold series seriesView
  rw [forEachPoint_eq, seriesName_eq]
  generalize seriesHeading id kind = name
  cases t.seriesPoints kind id range summary with
  | nil => exact ⟨_, rfl, rfl⟩
  | cons p points =>
    rw [feed, writePoint]
    dsimp only
    rw [feed_writePoint]
    refine ⟨_, rfl, ?_⟩
    have hseries : Json.quoted "series".toList = "\"series\"".toList := by decide
    have hname : Json.quoted "name".toList = "\"name\"".toList := by decide
    have hdata : Json.quoted "data".toList = "\"data\"".toList := by decide
    have hsome : seriesOf name (p :: points) = [.record [("name", .text name),
        ("data", .list ((p :: points).map pointPair))]] := rfl
    rw [hsome]
    simp only [text_record, text_list, List.map_cons, List.map_nil, separated, fieldText, hseries,
      hname, hdata, textOf_cons, textOf_append]
    simp [commaUnless, seriesOpening, textOf_pointPieces, textOf_laterPoints]

end LogTree

/-! ## 6. Answers -/

/-- A question that can be answered: the grouping of a chart has bins. -/
def Query.Supported : Query → Prop
  | .chart _ grouping => ∃ n, grouping.bins = some n
  | _ => True

namespace LogTree

/-- **The text of an answer** is that of the view. -/
theorem exists_answer (t : LogTree) {q : Query} (h : q.Supported) :
    ∃ ps, t.answer q = .ok ps ∧ textOf ps = Json.text (t.view q) := by
  cases q with
  | chart range grouping =>
    obtain ⟨n, hn⟩ := h
    obtain ⟨ps, hps, htext⟩ := t.exists_chartPieces range hn true t.zoneList
    refine ⟨plain ['\x7b'] :: ps ++ [plain ['\x7d']], ?_, ?_⟩
    · unfold answer chart
      dsimp only
      rw [hn, hps]
      rfl
    · rw [textOf_append, textOf_cons, htext, view, chartView, text_record]
      simp [zonesWithRuns, zoneList_eq]
  | table range =>
    refine ⟨_, rfl, ?_⟩
    rw [table, textOf_append, textOf_cons, textOf_tablePieces, view, tableView, text_list]
    simp [zonesWithRuns, zoneList_eq]
  | series kind id range summary => exact t.exists_series kind id range summary

/-- A chart without bins is refused. -/
theorem answer_of_unsupported (t : LogTree) {q : Query} (h : ¬q.Supported) :
    ∃ range grouping, q = .chart range grouping ∧
      t.answer q = .error (.unsupportedGrouping grouping) := by
  cases q with
  | chart range grouping =>
    refine ⟨range, grouping, rfl, ?_⟩
    cases hbins : grouping.bins with
    | none =>
      unfold answer chart
      dsimp only
      rw [hbins]
    | some n => exact absurd ⟨n, hbins⟩ h
  | table range => exact absurd trivial h
  | series kind id range summary => exact absurd trivial h

/-! ## 7. What is read -/

theorem plain_runRecord (r : WateringRun) : (runRecord r).Plain := by
  refine .record fun f hf => ?_
  simp only [List.mem_cons, List.not_mem_nil, or_false] at hf
  rcases hf with rfl | rfl | rfl | rfl | rfl <;> exact .int _

theorem plain_zoneRecord (z : UInt8 × List WateringRun) : (zoneRecord z).Plain := by
  refine .record fun f hf => ?_
  simp only [List.mem_cons, List.not_mem_nil, or_false] at hf
  rcases hf with rfl | rfl
  · exact .int _
  · refine .list fun d hd => ?_
    obtain ⟨r, -, rfl⟩ := List.mem_map.mp hd
    exact plain_runRecord r

theorem plain_seriesOf {name : String} {points : List SeriesPoint} {d : Data}
    (h : d ∈ seriesOf name points) : d.Plain := by
  unfold seriesOf at h
  split at h
  · cases h
  · rw [List.mem_singleton.mp h]
    refine .record fun f hf => ?_
    simp only [List.mem_cons, List.not_mem_nil, or_false] at hf
    rcases hf with rfl | rfl
    · exact .text _
    · refine .list fun d hd => ?_
      obtain ⟨p, -, rfl⟩ := List.mem_map.mp hd
      exact .ints _

/-- A view holds nothing that its text would not tell. -/
theorem plain_view (t : LogTree) (q : Query) : (t.view q).Plain := by
  cases q with
  | chart range grouping =>
    refine .record fun f hf => ?_
    obtain ⟨z, -, rfl⟩ := List.mem_map.mp hf
    refine .list fun d hd => ?_
    obtain ⟨b, -, rfl⟩ := List.mem_map.mp hd
    exact .ints _
  | table range =>
    refine .list fun d hd => ?_
    obtain ⟨z, -, rfl⟩ := List.mem_map.mp hd
    exact plain_zoneRecord z
  | series kind id range summary =>
    refine .record fun f hf => ?_
    rw [List.mem_singleton.mp hf]
    exact .list fun d hd => plain_seriesOf hd

/-- The answer to a question that cannot be answered is a failure. -/
theorem supported_of_writeAnswer {t : LogTree} {q : Query} {cause : String} {room : Option Nat}
    {bytes : List UInt8} (h : t.writeAnswer q cause room = (bytes, .ok ())) : q.Supported := by
  refine Classical.byContradiction fun hq => ?_
  obtain ⟨range, grouping, -, hanswer⟩ := t.answer_of_unsupported hq
  unfold writeAnswer at h
  rw [hanswer] at h
  cases h

/-- **Query output is the JSON of the view.**  A question is answered exactly if it can be, and
what reaches any output that took all of it is UTF-8; it is one JSON text, and it reads as the
view that was asked for. -/
theorem writeAnswer_view (t : LogTree) (q : Query) (cause : String) :
    (q.Supported ↔ ∃ bytes, t.writeAnswer q cause none = (bytes, .ok ())) ∧
      ∀ room bytes, t.writeAnswer q cause room = (bytes, .ok ()) →
        ∃ cs, Utf8.decode? bytes = some cs ∧ Json.read? cs = some (t.view q) := by
  refine ⟨⟨fun hq => ?_, fun ⟨bytes, h⟩ => supported_of_writeAnswer h⟩, fun room bytes h => ?_⟩
  · obtain ⟨ps, hps, -⟩ := t.exists_answer hq
    refine ⟨document ps, ?_⟩
    unfold writeAnswer
    rw [hps]
  · obtain ⟨ps, hps, htext⟩ := t.exists_answer (supported_of_writeAnswer h)
    unfold writeAnswer at h
    rw [hps] at h
    have hbytes : bytes = document ps := by
      cases room with
      | none =>
        cases h
        rfl
      | some room => exact document_of_deliver h
    refine ⟨textOf ps, ?_, ?_⟩
    · rw [hbytes, document_eq, Utf8.decode?_encode]
    · rw [htext, Json.read?_text (t.plain_view q)]

/-- A partition with a header and some lines. -/
def watered (lines : String) : Tree :=
  .file (Utf8.encode (Partition.wateringHeader ++ lines.toList))

/-- Six zones: the partitions of the first and the last are absent, that of the second has no
lines, and that of the fourth none in January.  One sensor was read in January, and once it gave
no number. -/
def patchyTree : LogTree where
  tree := .dir [
    ("watering.log", .dir
      [("wat-1970-02.log", watered ""),
        ("wat-1970-03.log", watered "1,1,0:30,10,1,100,100\r\n1,2,6:0,20,0,-5,100\r\n"),
        ("wat-1970-04.log", watered "7,1,0:30,10,1,100,100\r\n"),
        ("wat-1970-05.log", watered "1,1,0:59,7,1,100,100\r\n")]),
    ("tempr.log", .dir
      [("tm-01-70-007.log", .file (Utf8.encode
        (Partition.sensorHeader .temperature ++ "1,5:0,10\n1,5:15,?\n1,5:30,-20\n".toList)))])]
  root := ⟨"/", []⟩
  zones := 6

/-- What is read from bytes that are a JSON text. -/
def readAnswer (bytes : List UInt8) : Option Data := (Utf8.decode? bytes).bind Json.read?

/-- The two zones with a run, in a chart and in a table, and the two points of the sensor.  The
chart comes from an output of just the right size. -/
theorem writeAnswer_view_of_patchyTree :
    let range := DayRange.spanning .epoch .epoch
    let chart := Utf8.encode "\x7b\"3\":[[0,10],[6,20]],\"5\":[[0,7]]\x7d".toList
    (Query.chart range .hourly).Supported ∧
    patchyTree.writeAnswer (.chart range .hourly) "output full" (some 33) = (chart, .ok ()) ∧
    readAnswer chart = some (.record
      [("3", .list [.ints [0, 10], .ints [6, 20]]), ("5", .list [.ints [0, 7]])]) ∧
    (∃ table, patchyTree.writeAnswer (.table range) "" none = (table, .ok ()) ∧
      readAnswer table = some (.list
        [.record [("zone", .int 3), ("entries", .list
          [.record [("date", .int 1800), ("duration", .int 10), ("schedule", .int 1),
              ("seasonal", .int 100), ("wunderground", .int 100)],
            .record [("date", .int 108000), ("duration", .int 20), ("schedule", .int 0),
              ("seasonal", .int (-5)), ("wunderground", .int 100)]])],
          .record [("zone", .int 5), ("entries", .list
            [.record [("date", .int 3540), ("duration", .int 7), ("schedule", .int 1),
              ("seasonal", .int 100), ("wunderground", .int 100)]])]])) ∧
    ∃ series,
      patchyTree.writeAnswer (.series .temperature 7 range .raw) "" none = (series, .ok ()) ∧
      readAnswer series = some (.record [("series", .list
        [.record [("name", .text "Temperature readings, Sensor: 7"),
          ("data", .list [.ints [18000000, 10], .ints [19800000, -20]])]])]) := by
  have hread {q : Query} {room : Option Nat} {cause : String} {bytes : List UInt8}
      (h : patchyTree.writeAnswer q cause room = (bytes, .ok ())) :
      readAnswer bytes = some (patchyTree.view q) := by
    obtain ⟨cs, hcs, hjson⟩ := (writeAnswer_view patchyTree q cause).2 _ _ h
    rw [readAnswer, hcs, Option.bind_some, hjson]
  have hchart : patchyTree.writeAnswer (.chart (.spanning .epoch .epoch) .hourly) "output full"
      (some 33) =
        (Utf8.encode "\x7b\"3\":[[0,10],[6,20]],\"5\":[[0,7]]\x7d".toList, .ok ()) := rfl
  obtain ⟨table, htable⟩ :=
    (writeAnswer_view patchyTree (.table (.spanning .epoch .epoch)) "").1.mp trivial
  obtain ⟨series, hseries⟩ :=
    (writeAnswer_view patchyTree (.series .temperature 7 (.spanning .epoch .epoch) .raw) "").1.mp
      trivial
  exact ⟨⟨24, rfl⟩, hchart, hread hchart, ⟨table, htable, hread htable⟩, series, hseries,
    hread hseries⟩

end LogTree

end IrrigationLog
