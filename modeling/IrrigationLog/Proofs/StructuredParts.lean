/-
# The parts of an answer that are structured data

Of the pieces of an answer some are values, handed to the writer of structured data; all others
are plain.  This module says where in the text of an answer the values stand, and that in terms
of what the answer says: of its view.

A path of steps leads from structured data to some of its parts, and `Json.parts` finds them
together with the text before each (`Json.text_of_mem_parts`).  The values are

* in the table, all entries of all zones;
* in the series, its name;
* in the chart, none.

`LogTree.valuePlaces_answer` says that these are the values, each where the text has it.  What is
written before a value depends on all that came before, so the lemmas about loops are about any
text before them.
-/
import IrrigationLog.Proofs.StreamedAnswers

namespace IrrigationLog

open Text Piece

/-! ## 1. Parts of structured data -/

namespace Json

/-- A step from structured data to parts of it. -/
inductive Step where
  /-- To the items of a list. -/
  | items
  /-- To the fields of a name. -/
  | field (name : String)

/-- Items with the text before each, after a text that they follow. -/
def itemPlaces (before : List Char) (first : Bool) : List Data → List (List Char × Data)
  | [] => []
  | d :: ds =>
    let start := before ++ textOf (commaUnless first)
    (start, d) :: itemPlaces (start ++ text d) false ds

/-- The fields of a name with the text before each, after a text that all fields follow. -/
def fieldPlaces (name : String) (before : List Char) (first : Bool) :
    List (String × Data) → List (List Char × Data)
  | [] => []
  | (key, d) :: fs =>
    let start := before ++ textOf (commaUnless first) ++ quoted key.toList ++ [':']
    (if key = name then [(start, d)] else []) ++ fieldPlaces name (start ++ text d) false fs

/-- The parts that some steps lead to, each with the text before it. -/
def parts (before : List Char) : List Step → Data → List (List Char × Data)
  | [], d => [(before, d)]
  | .items :: path, .list ds =>
    (itemPlaces (before ++ ['[']) true ds).flatMap fun p => parts p.1 path p.2
  | .field name :: path, .record fs =>
    (fieldPlaces name (before ++ ['\x7b']) true fs).flatMap fun p => parts p.1 path p.2
  | _, _ => []

theorem text_of_mem_itemPlaces {before : List Char} {first : Bool} {ds : List Data}
    {p : List Char × Data} (h : p ∈ itemPlaces before first ds) :
    ∃ after, before ++ separated first (ds.map text) = p.1 ++ text p.2 ++ after := by
  induction ds generalizing before first with
  | nil => cases h
  | cons d ds ih =>
    rw [List.map_cons, separated]
    rcases List.mem_cons.mp h with rfl | h
    · exact ⟨separated false (ds.map text), by simp⟩
    · obtain ⟨after, hafter⟩ := ih h
      exact ⟨after, by rw [← hafter]; simp⟩

theorem text_of_mem_fieldPlaces {name : String} {before : List Char} {first : Bool}
    {fs : List (String × Data)} {p : List Char × Data}
    (h : p ∈ fieldPlaces name before first fs) :
    ∃ after, before ++ separated first (fs.map fieldText) = p.1 ++ text p.2 ++ after := by
  induction fs generalizing before first with
  | nil => cases h
  | cons f fs ih =>
    rw [List.map_cons, separated]
    rcases List.mem_append.mp h with hhere | hlater
    · split at hhere
      · rw [List.mem_singleton.mp hhere]
        exact ⟨separated false (fs.map fieldText), by simp [fieldText]⟩
      · cases hhere
    · obtain ⟨after, hafter⟩ := ih hlater
      exact ⟨after, by rw [← hafter]; simp [fieldText]⟩

/-- **Parts stand in the text** where they are said to stand. -/
theorem text_of_mem_parts {before : List Char} {path : List Step} {d : Data}
    {p : List Char × Data} (h : p ∈ parts before path d) :
    ∃ after, before ++ text d = p.1 ++ text p.2 ++ after := by
  induction path generalizing before d with
  | nil =>
    rw [List.mem_singleton.mp h]
    exact ⟨[], by simp⟩
  | cons step path ih =>
    cases step with
    | items =>
      cases d with
      | list ds =>
        obtain ⟨item, hitem, h⟩ := List.mem_flatMap.mp h
        obtain ⟨later, hlater⟩ := text_of_mem_itemPlaces hitem
        obtain ⟨after, hafter⟩ := ih h
        refine ⟨after ++ later ++ [']'], ?_⟩
        calc before ++ text (.list ds)
            = before ++ ['['] ++ separated true (ds.map text) ++ [']'] := by simp [text_list]
          _ = p.1 ++ text p.2 ++ after ++ later ++ [']'] := by rw [hlater, hafter]
          _ = p.1 ++ text p.2 ++ (after ++ later ++ [']']) := by simp
      | _ => cases h
    | field name =>
      cases d with
      | record fs =>
        obtain ⟨field, hfield, h⟩ := List.mem_flatMap.mp h
        obtain ⟨later, hlater⟩ := text_of_mem_fieldPlaces hfield
        obtain ⟨after, hafter⟩ := ih h
        refine ⟨after ++ later ++ ['\x7d'], ?_⟩
        calc before ++ text (.record fs)
            = before ++ ['\x7b'] ++ separated true (fs.map fieldText) ++ ['\x7d'] := by
              simp [text_record]
          _ = p.1 ++ text p.2 ++ after ++ later ++ ['\x7d'] := by rw [hlater, hafter]
          _ = p.1 ++ text p.2 ++ (after ++ later ++ ['\x7d']) := by simp
      | _ => cases h

/-- A byte of the text of some data lies in a part that some steps lead to. -/
def ByteIn (path : List Step) (d : Data) (n : Nat) : Prop :=
  ∃ before part after, (before, part) ∈ parts [] path d ∧ text d = before ++ text part ++ after ∧
    (Utf8.encode before).length ≤ n ∧ n < (Utf8.encode (before ++ text part)).length

end Json

/-- The steps to the parts of an answer that are written as structured data: the entries of the
table, and the name of the series. -/
def Query.structured : Query → List (List Json.Step)
  | .chart _ _ => []
  | .table _ => [[.items, .field "entries", .items]]
  | .series _ _ _ _ => [[.field "series", .items, .field "name"]]

/-! ## 2. Pieces that are values -/

namespace Piece

/-- The pieces that are values, each by its text and the text before it. -/
def valuePlaces (before : List Char) : List Piece → List (List Char × List Char)
  | [] => []
  | p :: ps =>
    (if p.kind = .value then [(before, p.text)] else []) ++ valuePlaces (before ++ p.text) ps

theorem mem_valuePlaces_cons {before : List Char} {p : Piece} {ps : List Piece}
    {v : List Char × List Char} :
    v ∈ valuePlaces before (p :: ps) ↔
      (p.kind = .value ∧ v = (before, p.text)) ∨ v ∈ valuePlaces (before ++ p.text) ps := by
  rw [valuePlaces, List.mem_append]
  cases p.kind with
  | plain => simp
  | value => simp

theorem valuePlaces_nil (before : List Char) : valuePlaces before [] = [] := rfl

theorem valuePlaces_plain (before cs : List Char) (ps : List Piece) :
    valuePlaces before (plain cs :: ps) = valuePlaces (before ++ cs) ps := rfl

theorem valuePlaces_ofValue (before cs : List Char) (ps : List Piece) :
    valuePlaces before (ofValue cs :: ps) = (before, cs) :: valuePlaces (before ++ cs) ps := rfl

theorem valuePlaces_append (before : List Char) (ps qs : List Piece) :
    valuePlaces before (ps ++ qs) =
      valuePlaces before ps ++ valuePlaces (before ++ textOf ps) qs := by
  induction ps generalizing before with
  | nil => simp [valuePlaces]
  | cons p ps ih => simp [valuePlaces, ih]

theorem valuePlaces_of_allPlain {ps : List Piece} (h : AllPlain ps) (before : List Char) :
    valuePlaces before ps = [] := by
  induction ps generalizing before with
  | nil => rfl
  | cons p ps ih =>
    rw [valuePlaces, h p List.mem_cons_self, ih fun q hq => h q (List.mem_cons_of_mem _ hq)]
    rfl

/-- What comes before a later piece includes what came before. -/
theorem length_le_of_mem_valuePlaces {before : List Char} {ps : List Piece}
    {v : List Char × List Char} (h : v ∈ valuePlaces before ps) :
    (Utf8.encode before).length ≤ (Utf8.encode v.1).length := by
  induction ps generalizing before with
  | nil => cases h
  | cons p ps ih =>
    rcases mem_valuePlaces_cons.mp h with ⟨-, rfl⟩ | hlater
    · exact Nat.le_refl _
    · have hle := ih hlater
      rw [Utf8.encode_append, List.length_append] at hle
      omega

end Piece

/-! ## 3. The values in an answer -/

namespace LogTree

variable {t : LogTree} {range : DayRange}

open Json

/-- The place of a part in a text. -/
def placeOf (p : List Char × Data) : List Char × List Char := (p.1, text p.2)

theorem valuePlaces_entriesPieces_succ (before : List Char) (first : Bool) (zone : UInt8)
    (entries : Nat) (runs : List WateringRun) :
    valuePlaces before (entriesPieces first zone (entries + 1) runs) =
      (itemPlaces before false (runs.map runRecord)).map placeOf := by
  induction runs generalizing before entries with
  | nil => rfl
  | cons r runs ih =>
    rw [entriesPieces, if_neg (Nat.succ_ne_zero entries), List.singleton_append,
      valuePlaces_plain, valuePlaces_ofValue, ih]
    rfl

/-- The entries of a zone begin after its number. -/
theorem parts_zoneRecord (before : List Char) (zone : UInt8) (runs : List WateringRun) :
    parts before [.field "entries", .items] (zoneRecord (zone, runs)) =
      itemPlaces
        (before ++ ("\x7b\"zone\":".toList ++ decimal zone.toNat ++ ",\"entries\":[".toList))
        true (runs.map runRecord) := by
  have hzone : Json.quoted ['z', 'o', 'n', 'e'] = '"' :: "zone\"".toList := by decide
  have hentries : Json.quoted ['e', 'n', 't', 'r', 'i', 'e', 's'] = '"' :: "entries\"".toList := by
    decide
  have hnumber : Json.text (.int zone.toNat) = decimal zone.toNat := by
    rw [Json.text]
    rfl
  simp [parts, zoneRecord, fieldPlaces, commaUnless, hzone, hentries, hnumber]

/-- **The values in a zone of the table** are the entries. -/
theorem valuePlaces_entriesPieces (before : List Char) (first : Bool) (zone : UInt8)
    (r : WateringRun) (runs : List WateringRun) :
    valuePlaces before (entriesPieces first zone 0 (r :: runs)) =
      (parts (before ++ textOf (commaUnless first)) [.field "entries", .items]
        (zoneRecord (zone, r :: runs))).map placeOf := by
  have hopening : AllPlain (zoneOpening first zone) :=
    (allPlain_commaUnless first).append (.cons .nil _)
  rw [entriesPieces, tableEntry_eq, if_pos rfl, valuePlaces_append,
    valuePlaces_of_allPlain hopening, List.nil_append, valuePlaces_ofValue,
    valuePlaces_entriesPieces_succ, parts_zoneRecord]
  simp [itemPlaces, placeOf, zoneOpening, commaUnless]

/-- **The values in the table** are the entries of its zones. -/
theorem valuePlaces_tablePieces (before : List Char) (first : Bool) (zones : List UInt8) :
    valuePlaces before (t.tablePieces range first zones) =
      ((itemPlaces before first ((zones.filterMap (t.runsOf? range)).map zoneRecord)).flatMap
        fun p => parts p.1 [.field "entries", .items] p.2).map placeOf := by
  induction zones generalizing before first with
  | nil => rfl
  | cons zone zones ih =>
    rw [tablePieces_cons]
    cases hruns : t.runsOf? range zone with
    | none =>
      rw [List.filterMap_cons_none hruns]
      exact ih before first
    | some z =>
      obtain ⟨r, runs, rfl⟩ := exists_of_runsOf? hruns
      rw [List.filterMap_cons_some hruns, valuePlaces_append, valuePlaces_entriesPieces,
        textOf_entriesPieces, ih, List.map_cons, itemPlaces, List.flatMap_cons, List.map_append,
        List.append_assoc]

/-- **The value in a series** is its name. -/
theorem valuePlaces_seriesPieces (name : String) (points : List SeriesPoint) :
    valuePlaces [] (seriesPieces name points) =
      (parts [] [.field "series", .items, .field "name"]
        (.record [("series", .list (seriesOf name points))])).map placeOf := by
  have hseries : Json.quoted ['s', 'e', 'r', 'i', 'e', 's'] = '"' :: "series\"".toList := by decide
  have hname : Json.quoted ['n', 'a', 'm', 'e'] = '"' :: "name\"".toList := by decide
  cases points with
  | nil => rfl
  | cons p points =>
    have hlater : AllPlain (points.flatMap fun p => plain [','] :: pointPieces p) :=
      .flatMap (fun p => .cons (.cons .nil _) _) points
    unfold seriesPieces
    dsimp only
    generalize (points.flatMap fun p => plain [','] :: pointPieces p) = later at hlater
    simp [seriesOpening, pointPieces, valuePlaces_plain, valuePlaces_ofValue, valuePlaces_append,
      valuePlaces_of_allPlain hlater, valuePlaces_nil, parts, fieldPlaces, seriesOf, itemPlaces,
      commaUnless, hseries, hname, placeOf]

/-- **The values in an answer** are the parts of its view that are structured data. -/
theorem valuePlaces_answer {q : Query} {ps : List Piece} (h : t.answer q = .ok ps) :
    valuePlaces [] ps =
      (q.structured.flatMap fun path => parts [] path (t.view q)).map placeOf := by
  cases q with
  | chart range grouping =>
    obtain ⟨n, hn⟩ := supported_of_answer h
    obtain ⟨zones, hzones, -, hplain⟩ := t.exists_writeBins range hn true t.zoneList
    unfold answer chart at h
    dsimp only at h
    rw [hn, hzones] at h
    cases h
    exact valuePlaces_of_allPlain ((hplain.cons _).append (.cons .nil _)) []
  | table range =>
    cases h
    simp only [table, Query.structured, List.flatMap_singleton, zoneList_eq]
    rw [List.cons_append, valuePlaces_plain, valuePlaces_append, valuePlaces_tablePieces,
      valuePlaces_plain, valuePlaces_nil, List.append_nil]
    rfl
  | series kind id range summary =>
    have hseries := (t.series_eq kind id range summary).symm.trans h
    cases hseries
    simp only [Query.structured, List.flatMap_singleton, seriesName_eq]
    exact valuePlaces_seriesPieces _ _

end LogTree

end IrrigationLog
