/-
# Interrupted output

An output may fail anywhere: at a comma, within a number, in the midst of an entry.  This module
says what is left of an answer then.

* **An exact start.**  What was written is the whole answer up to the byte at which the output
  failed, and success is reported exactly if that is all of it (`Piece.fst_deliver`,
  `Piece.snd_deliver_of_le`).
* **The kind of failure** is that of the piece of the first byte that was not accepted
  (`Piece.snd_deliver`): a failure of serialization if this byte is of an entry of the table or of
  the name of the series, and one of output otherwise (`LogTree.cutOff_of_supported`).
* **A receiver of points** that fails was passed the points up to the one it failed on, and no
  more (`LogTree.forEachPoint_remembering_error`).

All of it is said of answers written while the partitions are gone through.
-/
import IrrigationLog.Proofs.StructuredParts

namespace IrrigationLog

open Text Piece

/-! ## 1. What is delivered -/

namespace Piece

/-- The piece that a byte of a document belongs to. -/
def pieceAt? : List Piece → Nat → Option Piece
  | [], _ => none
  | p :: ps, n => if n < p.bytes.length then some p else pieceAt? ps (n - p.bytes.length)

theorem document_cons (p : Piece) (ps : List Piece) :
    document (p :: ps) = p.bytes ++ document ps := rfl

/-- Every byte of a document belongs to a piece. -/
theorem exists_pieceAt? {ps : List Piece} {n : Nat} (h : n < (document ps).length) :
    ∃ p, pieceAt? ps n = some p := by
  induction ps generalizing n with
  | nil => exact absurd h (Nat.not_lt_zero n)
  | cons p ps ih =>
    rw [document_cons, List.length_append] at h
    rw [pieceAt?]
    split
    · exact ⟨p, rfl⟩
    · exact ih (by omega)

/-- **What is delivered** is a start of the document. -/
theorem fst_deliver (cause : String) (room : Nat) (ps : List Piece) :
    (deliver cause room ps).1 = (document ps).take room := by
  induction ps generalizing room with
  | nil => simp [deliver, document]
  | cons p ps ih =>
    rw [deliver, document_cons, List.take_append]
    split
    next hfits =>
      dsimp only
      rw [ih, List.take_of_length_le hfits]
    next hfits =>
      rw [Nat.sub_eq_zero_of_le (by omega), List.take_zero, List.append_nil]

/-- An output with room for the document takes all of it. -/
theorem snd_deliver_of_le {cause : String} {room : Nat} {ps : List Piece}
    (h : (document ps).length ≤ room) : (deliver cause room ps).2 = .ok () := by
  induction ps generalizing room with
  | nil => rfl
  | cons p ps ih =>
    rw [document_cons, List.length_append] at h
    rw [deliver, if_pos (by omega)]
    exact ih (by omega)

/-- **The failure is that of the piece** of the first byte that was not accepted. -/
theorem snd_deliver {cause : String} {room : Nat} {ps : List Piece} {p : Piece}
    (h : pieceAt? ps room = some p) : (deliver cause room ps).2 = .error (p.failure cause) := by
  induction ps generalizing room with
  | nil => cases h
  | cons q ps ih =>
    rw [pieceAt?] at h
    rw [deliver]
    split at h
    next hin =>
      cases h
      rw [if_neg (by omega)]
    next hafter =>
      rw [if_pos (by omega)]
      exact ih h

/-- A place takes in a byte. -/
def Covers (v : List Char × List Char) (n : Nat) : Prop :=
  (Utf8.encode v.1).length ≤ n ∧ n < (Utf8.encode (v.1 ++ v.2)).length

/-- **The piece of a byte is a value** exactly if the place of a value takes the byte in. -/
theorem kind_eq_value_iff (before : List Char) {ps : List Piece} {n : Nat} {p : Piece}
    (h : pieceAt? ps n = some p) :
    p.kind = .value ↔
      ∃ v ∈ valuePlaces before ps, Covers v ((Utf8.encode before).length + n) := by
  induction ps generalizing before n with
  | nil => cases h
  | cons q ps ih =>
    have hlength : (Utf8.encode (before ++ q.text)).length =
        (Utf8.encode before).length + q.bytes.length := by
      rw [Utf8.encode_append, List.length_append]
      rfl
    rw [pieceAt?] at h
    split at h
    next hin =>
      cases h
      constructor
      · intro hkind
        refine ⟨_, mem_valuePlaces_cons.mpr (.inl ⟨hkind, rfl⟩), ?_⟩
        unfold Covers
        rw [hlength]
        dsimp only
        omega
      · rintro ⟨v, hv, hle, -⟩
        rcases mem_valuePlaces_cons.mp hv with ⟨hkind, -⟩ | hlater
        · exact hkind
        · have hafter := length_le_of_mem_valuePlaces hlater
          omega
    next hafter =>
      have hn : (Utf8.encode before).length + n =
          (Utf8.encode (before ++ q.text)).length + (n - q.bytes.length) := by omega
      rw [ih (before ++ q.text) h, hn]
      constructor
      · rintro ⟨v, hv, hcovers⟩
        exact ⟨v, mem_valuePlaces_cons.mpr (.inr hv), hcovers⟩
      · rintro ⟨v, hv, hcovers⟩
        rcases mem_valuePlaces_cons.mp hv with ⟨-, rfl⟩ | hlater
        · have hlt := hcovers.2
          dsimp only at hlt
          omega
        · exact ⟨v, hlater, hcovers⟩

end Piece

/-! ## 2. Answers cut off -/

namespace LogTree

open Json

variable {t : LogTree}

/-- A byte of an answer lies in one of its parts that are structured data. -/
def InStructured (t : LogTree) (q : Query) (n : Nat) : Prop :=
  ∃ path ∈ q.structured, ByteIn path (t.view q) n

theorem inStructured_iff {q : Query} {ps : List Piece} (h : t.answer q = .ok ps) (n : Nat) :
    t.InStructured q n ↔ ∃ v ∈ valuePlaces [] ps, Covers v n := by
  rw [valuePlaces_answer h]
  constructor
  · rintro ⟨path, hpath, before, part, after, hpart, -, hle, hlt⟩
    exact ⟨placeOf (before, part), List.mem_map_of_mem (List.mem_flatMap.mpr ⟨path, hpath, hpart⟩),
      hle, hlt⟩
  · rintro ⟨v, hv, hle, hlt⟩
    obtain ⟨p, hp, rfl⟩ := List.mem_map.mp hv
    obtain ⟨path, hpath, hp⟩ := List.mem_flatMap.mp hp
    obtain ⟨after, hafter⟩ := text_of_mem_parts hp
    exact ⟨path, hpath, p.1, p.2, after, hp, hafter, hle, hlt⟩

/-- The bytes of a whole answer. -/
def wholeAnswer (t : LogTree) (q : Query) : List UInt8 := Utf8.encode (text (t.view q))

theorem lt_of_inStructured {q : Query} {n : Nat} (h : t.InStructured q n) :
    n < (t.wholeAnswer q).length := by
  obtain ⟨path, -, before, part, after, -, htext, -, hlt⟩ := h
  unfold wholeAnswer
  rw [htext, Utf8.encode_append, List.length_append]
  omega

/-- What becomes of an answer whose output accepts a number of bytes and then fails. -/
structure CutOff (t : LogTree) (q : Query) (cause : String) (n : Nat) : Prop where
  /-- It is written up to there, to the byte. -/
  written : (t.stream q cause (some n)).1 = (t.wholeAnswer q).take n
  /-- It succeeds exactly if that is all of it. -/
  ok_iff : (t.stream q cause (some n)).2 = .ok () ↔ (t.wholeAnswer q).length ≤ n
  /-- Within structured data, it is the serialization that fails. -/
  serialization : t.InStructured q n →
    (t.stream q cause (some n)).2 = .error (.serialization cause)
  /-- Elsewhere, it is the output. -/
  output : n < (t.wholeAnswer q).length → ¬t.InStructured q n →
    (t.stream q cause (some n)).2 = .error (.output cause)

/-- **An answer is cut off where its output fails.** -/
theorem cutOff_of_supported (t : LogTree) {q : Query} (hq : q.Supported) (cause : String)
    (n : Nat) : t.CutOff q cause n := by
  obtain ⟨ps, hps, htext⟩ := t.exists_answer hq
  have hwhole : t.wholeAnswer q = document ps := by
    rw [document_eq, htext]
    rfl
  have hstream : t.stream q cause (some n) = deliver cause n ps := by
    rw [stream_eq_writeAnswer]
    unfold writeAnswer
    rw [hps]
  have hfailure (hn : n < (document ps).length) :
      ∃ p : Piece, (deliver cause n ps).2 = .error (p.failure cause) ∧
        (p.kind = .value ↔ t.InStructured q n) := by
    obtain ⟨p, hp⟩ := exists_pieceAt? hn
    have hkind := kind_eq_value_iff [] hp
    rw [Utf8.encode_nil, List.length_nil, Nat.zero_add, ← inStructured_iff hps] at hkind
    exact ⟨p, snd_deliver hp, hkind⟩
  refine ⟨?_, ⟨fun hok => ?_, fun hle => ?_⟩, fun hin => ?_, fun hn hnot => ?_⟩
  · rw [hstream, hwhole, fst_deliver]
  · refine Nat.not_lt.mp fun hn => ?_
    rw [hwhole] at hn
    obtain ⟨p, herror, -⟩ := hfailure hn
    rw [hstream, herror] at hok
    cases hok
  · rw [hwhole] at hle
    rw [hstream, snd_deliver_of_le hle]
  · have hn := lt_of_inStructured hin
    rw [hwhole] at hn
    obtain ⟨p, herror, hkind⟩ := hfailure hn
    rw [hstream, herror, Piece.failure, hkind.mpr hin]
  · rw [hwhole] at hn
    obtain ⟨p, herror, hkind⟩ := hfailure hn
    have hplain : p.kind = .plain := by
      cases hp : p.kind with
      | plain => rfl
      | value => exact absurd (hkind.mp hp) hnot
    rw [hstream, herror, Piece.failure, hplain]

end LogTree

/-! ## 3. Receivers that fail -/

section Receivers

variable {σ ε : Type} {receive : σ → SeriesPoint → Except ε σ}

/-- A receiver that also remembers the points it was passed, the one it failed on included. -/
def remembering (receive : σ → SeriesPoint → Except ε σ) :
    σ × List SeriesPoint → SeriesPoint →
      Except (ε × List SeriesPoint) (σ × List SeriesPoint)
  | (s, seen), p =>
    match receive s p with
    | .ok s => .ok (s, seen ++ [p])
    | .error error => .error (error, seen ++ [p])

/-- What a receiver that took some points remembers. -/
theorem feed_remembering {s s' : σ} {seen points : List SeriesPoint}
    (h : feed receive s points = .ok s') :
    feed (remembering receive) (s, seen) points = .ok (s', seen ++ points) := by
  induction points generalizing s seen with
  | nil =>
    cases h
    simp [feed]
  | cons p points ih =>
    rw [feed] at h ⊢
    rw [remembering]
    cases hp : receive s p with
    | error error =>
      rw [hp] at h
      cases h
    | ok next =>
      rw [hp] at h
      dsimp only
      rw [ih h, List.append_assoc]
      rfl

/-- A receiver that fails on a point is fed no more. -/
theorem feed_error {s s' : σ} {points later : List SeriesPoint} {p : SeriesPoint} {error : ε}
    (h : feed receive s points = .ok s') (hp : receive s' p = .error error) :
    feed receive s (points ++ p :: later) = .error error := by
  rw [feed_append, h]
  change feed receive s' (p :: later) = _
  rw [feed, hp]

end Receivers

namespace LogTree

open Json

variable {σ ε : Type} {receive : σ → SeriesPoint → Except ε σ} {t : LogTree} {kind : Sensor}
  {id : UInt16} {range : DayRange} {summary : Summary} {s s' : σ}

/-- A receiver that takes all points is passed the whole series. -/
theorem forEachPoint_remembering
    (h : feed receive s (t.seriesPoints kind id range summary) = .ok s') :
    t.forEachPoint kind id range summary (remembering receive) (s, []) =
      .ok ((s', t.seriesPoints kind id range summary),
        (t.seriesPoints kind id range summary).length) := by
  rw [forEachPoint_eq, feed_remembering h]
  rfl

/-- What comes of a receiver that fails after it took some points. -/
theorem forEachPoint_error {k : Nat} {p : SeriesPoint} {error : ε}
    (h : feed receive s ((t.seriesPoints kind id range summary).take k) = .ok s')
    (hp : (t.seriesPoints kind id range summary)[k]? = some p)
    (herror : receive s' p = .error error) :
    t.forEachPoint kind id range summary receive s = .error error := by
  obtain ⟨hk, hget⟩ := List.getElem?_eq_some_iff.mp hp
  rw [forEachPoint_eq]
  generalize t.seriesPoints kind id range summary = points at h hk hget
  have hfeed : feed receive s points = .error error := by
    rw [← List.take_append_drop k points, List.drop_eq_getElem_cons hk, hget]
    exact feed_error h herror
  rw [hfeed]
  rfl

/-- **A receiver that fails was passed the points up to there.** -/
theorem forEachPoint_remembering_error {k : Nat} {p : SeriesPoint} {error : ε}
    (h : feed receive s ((t.seriesPoints kind id range summary).take k) = .ok s')
    (hp : (t.seriesPoints kind id range summary)[k]? = some p)
    (herror : receive s' p = .error error) :
    t.forEachPoint kind id range summary (remembering receive) (s, []) =
      .error (error, (t.seriesPoints kind id range summary).take (k + 1)) := by
  obtain ⟨hk, hget⟩ := List.getElem?_eq_some_iff.mp hp
  refine forEachPoint_error (feed_remembering h) hp ?_
  rw [remembering, herror, List.nil_append, List.take_succ_eq_append_getElem hk, hget]

/-- **Interrupted output is an exact prefix.**  An answer is written while it is made.  Without a
bound all of it is; an output that accepts a number of bytes and then fails gets that many of
them, and the failure tells whether the next byte was one of structured data.  A receiver that
fails on a point of a series was passed the points up to this one, and its failure is the
outcome. -/
theorem interrupted_output (t : LogTree) (cause : String) :
    (∀ q room, t.writeAnswer q cause room = t.stream q cause room) ∧
    (∀ q : Query, q.Supported →
      t.stream q cause none = (t.wholeAnswer q, .ok ()) ∧ ∀ n, t.CutOff q cause n) ∧
    ∀ (kind : Sensor) (id : UInt16) (range : DayRange) (summary : Summary) {σ ε : Type}
      (receive : σ → SeriesPoint → Except ε σ) (s : σ),
      let points := t.seriesPoints kind id range summary
      (∀ s', feed receive s points = .ok s' →
        t.forEachPoint kind id range summary (remembering receive) (s, []) =
          .ok ((s', points), points.length)) ∧
      ∀ k s' p error, feed receive s (points.take k) = .ok s' → points[k]? = some p →
        receive s' p = .error error →
          t.forEachPoint kind id range summary receive s = .error error ∧
          t.forEachPoint kind id range summary (remembering receive) (s, []) =
            .error (error, points.take (k + 1)) := by
  refine ⟨fun q room => (t.stream_eq_writeAnswer q cause room).symm, fun q hq => ⟨?_, ?_⟩, ?_⟩
  · obtain ⟨ps, hps, htext⟩ := t.exists_answer hq
    rw [stream_eq_writeAnswer]
    unfold writeAnswer wholeAnswer
    rw [hps, ← htext, ← document_eq]
  · exact t.cutOff_of_supported hq cause
  · intro kind id range summary σ ε receive s points
    exact ⟨fun s' h => forEachPoint_remembering h, fun k s' p error h hp herror =>
      ⟨forEachPoint_error h hp herror, forEachPoint_remembering_error h hp herror⟩⟩

/-- A run on the first day of the count. -/
def smallRun : WateringRun where
  start := ⟨.epoch, .ofSeconds 1800⟩
  zone := 1
  duration := 10
  schedule := 1
  seasonal := 100
  weather := 100

/-- A tree with this run and three readings. -/
def smallTree : LogTree where
  tree := .dir [
    ("watering.log", .dir [("wat-1970-01.log", watered "1,1,0:30,10,1,100,100\r\n")]),
    ("tempr.log", .dir [("tm-01-70-007.log", .file (Utf8.encode
      (Partition.sensorHeader .temperature ++ "1,5:0,10\n1,5:30,20\n1,6:0,30\n".toList)))])]
  root := ⟨"/", []⟩
  zones := 1

/-- A receiver that takes two points. -/
def takeTwo (n : Nat) (p : SeriesPoint) : Except SeriesPoint Nat :=
  if n < 2 then .ok (n + 1) else .error p

/-- An output that fails within the only entry of a table, and a receiver that fails on the last
of three points. -/
theorem interrupted_output_of_smallTree :
    let range := DayRange.spanning .epoch .epoch
    let points := smallTree.seriesPoints .temperature 7 range .raw
    Query.Supported (.table range) ∧ smallTree.InStructured (.table range) 24 ∧
    smallTree.stream (.table range) "output full" (some 24) =
      (Utf8.encode "[\x7b\"zone\":1,\"entries\":[\x7b\"".toList,
        .error (.serialization "output full")) ∧
    feed takeTwo 0 (points.take 2) = .ok 2 ∧
    ∃ p, points[2]? = some p ∧ takeTwo 2 p = .error p ∧
      smallTree.forEachPoint .temperature 7 range .raw (remembering takeTwo) (0, []) =
        .error (p, points.take 3) := by
  intro range points
  obtain ⟨-, hanswers, hreceivers⟩ := interrupted_output smallTree "output full"
  have hview : smallTree.view (.table range) = .list [zoneRecord (1, [smallRun])] := rfl
  have hpart : ("[\x7b\"zone\":1,\"entries\":[".toList, runRecord smallRun) ∈
      parts [] [.items, .field "entries", .items] (.list [zoneRecord (1, [smallRun])]) := by
    change _ ∈ parts ['['] [.field "entries", .items] (zoneRecord (1, [smallRun])) ++ []
    rw [List.append_nil, parts_zoneRecord]
    exact List.mem_singleton.mpr rfl
  have hin : smallTree.InStructured (.table range) 24 := by
    obtain ⟨after, hafter⟩ := text_of_mem_parts hpart
    unfold InStructured
    rw [hview]
    exact ⟨_, List.mem_singleton_self _, _, _, after, hpart, hafter, by decide +kernel,
      by decide +kernel⟩
  have hcut := (hanswers (.table range) trivial).2 24
  have hwritten : (smallTree.wholeAnswer (.table range)).take 24 =
      Utf8.encode "[\x7b\"zone\":1,\"entries\":[\x7b\"".toList := by decide +kernel
  have hstream : smallTree.stream (.table range) "output full" (some 24) =
      (Utf8.encode "[\x7b\"zone\":1,\"entries\":[\x7b\"".toList,
        .error (.serialization "output full")) := by
    rw [← hwritten, ← hcut.written, ← hcut.serialization hin]
  have hthree : 2 < points.length := by decide +kernel
  have htakes (ps : List SeriesPoint) (hps : 2 < ps.length) :
      feed takeTwo 0 (ps.take 2) = .ok 2 := by
    match ps, hps with
    | _ :: _ :: _, _ => rfl
  have htaken := htakes points hthree
  have hp := List.getElem?_eq_getElem hthree
  have hrefused : takeTwo 2 points[2] = .error points[2] := rfl
  have hreceived := (hreceivers .temperature 7 range .raw takeTwo 0).2 2 2 _ _ htaken hp hrefused
  exact ⟨trivial, hin, hstream, htaken, _, hp, hrefused, hreceived.2⟩

end LogTree

end IrrigationLog
