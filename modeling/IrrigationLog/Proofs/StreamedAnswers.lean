/-
# Answers in pieces, and answers as they are written

An answer can be had as a list of pieces, or written piece by piece while the partitions are gone
through.  In the second case a failing output breaks off the work in the midst of a loop, over
bins, runs, points or zones.  This module shows that nothing but the moment is different: what
reaches the output, and how it ends, is what comes of writing the list.

* **Loop by loop.**  Each loop writes the pieces that the list has for it, whatever the output
  accepts (`LogTree.writeMeans_eq`, `writeRuns_eq`, `writeSeries_eq`; for the zones of the chart,
  whose pieces may be refused, `LogTree.exists_writeBins`).
* **Answer by answer.**  So does the whole (`LogTree.writeTo_eq`), and the outcomes agree for any
  output (`LogTree.stream_eq_writeAnswer`).
-/
import IrrigationLog.Proofs.QueryDocuments
import IrrigationLog.Query.Stream

namespace IrrigationLog

open Text Piece

/-! ## 1. Writing pieces -/

namespace Sink

theorem putAll_nil (s : Sink) : s.putAll [] = pure s := rfl

theorem putAll_cons (s : Sink) (p : Piece) (ps : List Piece) :
    s.putAll (p :: ps) = s.put p >>= fun s => s.putAll ps := by
  rw [putAll]
  cases s.put p <;> rfl

/-- Writing two lists of pieces is writing one after the other. -/
theorem putAll_append (s : Sink) (ps qs : List Piece) :
    s.putAll (ps ++ qs) = s.putAll ps >>= fun s => s.putAll qs := by
  induction ps generalizing s with
  | nil => rfl
  | cons p ps ih =>
    rw [List.cons_append, putAll_cons, putAll_cons, bind_assoc]
    exact congrArg (s.put p >>= ·) (funext ih)

/-- An output without a bound takes all. -/
theorem putAll_unbounded (written : List UInt8) (cause : String) (ps : List Piece) :
    putAll ⟨written, none, cause⟩ ps = .ok ⟨written ++ document ps, none, cause⟩ := by
  induction ps generalizing written with
  | nil => simp [putAll, document]
  | cons p ps ih =>
    rw [putAll]
    dsimp only [put]
    rw [ih, List.append_assoc]
    rfl

/-- **A bounded output gets what is delivered.** -/
theorem outcome_putAll (written : List UInt8) (room : Nat) (cause : String) (ps : List Piece) :
    outcome (putAll ⟨written, some room, cause⟩ ps) =
      (written ++ (deliver cause room ps).1, (deliver cause room ps).2) := by
  induction ps generalizing written room with
  | nil => simp [putAll, deliver, outcome]
  | cons p ps ih =>
    rw [putAll, deliver]
    dsimp only [put]
    by_cases hfits : p.bytes.length ≤ room
    · rw [if_pos hfits, if_pos hfits]
      dsimp only
      rw [ih, List.append_assoc]
    · rw [if_neg hfits, if_neg hfits]
      rfl

end Sink

/-! ## 2. Plain pieces -/

namespace Piece

/-- None of some pieces is a value. -/
def AllPlain (ps : List Piece) : Prop := ∀ p ∈ ps, p.kind = .plain

namespace AllPlain

theorem nil : AllPlain [] := by
  intro p hp
  cases hp

theorem cons {ps : List Piece} (h : AllPlain ps) (cs : List Char) : AllPlain (plain cs :: ps) := by
  intro p hp
  rcases List.mem_cons.mp hp with rfl | hp
  · rfl
  · exact h p hp

theorem append {ps qs : List Piece} (hp : AllPlain ps) (hq : AllPlain qs) :
    AllPlain (ps ++ qs) := by
  intro p h
  rcases List.mem_append.mp h with h | h
  · exact hp p h
  · exact hq p h

theorem flatMap {α : Type} {f : α → List Piece} (h : ∀ a, AllPlain (f a)) (as : List α) :
    AllPlain (as.flatMap f) := by
  intro p hp
  obtain ⟨a, -, hp⟩ := List.mem_flatMap.mp hp
  exact h a p hp

end AllPlain

theorem allPlain_commaUnless (first : Bool) : AllPlain (commaUnless first) := by
  cases first with
  | true => exact .nil
  | false => exact .cons .nil _

end Piece

/-! ## 3. Written while it is made -/

namespace LogTree

variable {t : LogTree} {range : DayRange} {grouping : Grouping}

open Sink

theorem writeMeans_eq (index : Nat) (s : Sink) (bins : List (Nat × Int)) :
    writeMeans index s bins = s.putAll (meansPieces index bins) := by
  induction bins generalizing index s with
  | nil => rfl
  | cons b bins ih => simp only [writeMeans, meansPieces, putAll_append, putAll_cons, ih]

theorem allPlain_meansPieces (index : Nat) (bins : List (Nat × Int)) :
    AllPlain (meansPieces index bins) := by
  induction bins generalizing index with
  | nil => exact .nil
  | cons b bins ih => exact (allPlain_commaUnless _).append ((ih (index + 1)).cons _)

theorem allPlain_binsPieces (b : ZoneBins) : AllPlain (binsPieces b) :=
  .append (.cons (allPlain_meansPieces 0 b.bins) _) (.cons .nil _)

/-- The zones of the chart, written one by one. -/
theorem exists_writeBins (t : LogTree) (range : DayRange) {n : Nat}
    (h : grouping.bins = some n) (first : Bool) (zones : List UInt8) :
    ∃ ps, t.chartPieces range grouping first zones = .ok ps ∧
      (∀ s, t.writeBins range grouping first s zones = s.putAll ps) ∧ AllPlain ps := by
  induction zones generalizing first with
  | nil => exact ⟨[], rfl, fun s => rfl, .nil⟩
  | cons zone zones ih =>
    rcases t.zoneBins_cases range h zone with ⟨-, hbins⟩ | ⟨z, b, -, hbins, hzone⟩
    · obtain ⟨ps, hps, hwrite, hplain⟩ := ih first
      refine ⟨ps, ?_, fun s => ?_, hplain⟩
      · rw [chartPieces, hbins]
        exact hps
      · rw [writeBins, hbins]
        exact hwrite s
    · obtain ⟨ps, hps, hwrite, hplain⟩ := ih false
      refine ⟨commaUnless first ++ binsPieces b ++ ps, ?_, fun s => ?_,
        ((allPlain_commaUnless first).append (allPlain_binsPieces b)).append hplain⟩
      · rw [chartPieces, hbins]
        change (t.chartPieces range grouping false zones).bind _ = _
        rw [hps]
        rfl
      · rw [writeBins, hbins]
        simp only [binsPieces, hzone, putAll_append, putAll_cons, putAll_nil, writeMeans_eq,
          hwrite, bind_assoc, pure_bind]

/-- The entries of a zone after its first. -/
theorem writeEntries_succ (zone : UInt8) (first : Bool) (entries : Nat) (s : Sink)
    (runs : List WateringRun) :
    writeEntries zone false (entries + 1) s runs = do
      let s ← s.putAll (entriesPieces first zone (entries + 1) runs)
      return (false, s) := by
  induction runs generalizing entries s with
  | nil =>
    rw [writeEntries, entriesPieces, if_pos (Nat.succ_pos entries), if_pos (Nat.succ_pos entries)]
    simp only [putAll_cons, putAll_nil, bind_pure]
  | cons r runs ih =>
    rw [writeEntries, entriesPieces, if_neg (Nat.succ_ne_zero entries),
      if_neg (Nat.succ_ne_zero entries)]
    simp only [putAll_append, putAll_cons, putAll_nil, ih, bind_assoc, pure_bind]

/-- The entries of a zone, of which there may be none. -/
theorem writeEntries_eq (zone : UInt8) (first : Bool) (s : Sink) (runs : List WateringRun) :
    writeEntries zone first 0 s runs = do
      let s ← s.putAll (entriesPieces first zone 0 runs)
      return (first && runs.isEmpty, s) := by
  cases runs with
  | nil =>
    rw [List.isEmpty_nil, Bool.and_true]
    rfl
  | cons r runs =>
    rw [writeEntries, entriesPieces, if_pos rfl, if_pos rfl, List.isEmpty_cons, Bool.and_false]
    simp only [putAll_append, putAll_cons, writeEntries_succ zone first, bind_assoc]

theorem writeRuns_eq (first : Bool) (s : Sink) (zones : List UInt8) :
    t.writeRuns range first s zones = s.putAll (t.tablePieces range first zones) := by
  induction zones generalizing first s with
  | nil => rfl
  | cons zone zones ih =>
    rw [writeRuns, tablePieces]
    cases t.scanZone zone range with
    | none => exact ih first s
    | some runs => simp only [writeEntries_eq, putAll_append, ih, bind_assoc, pure_bind]

/-- The pieces of a series of points. -/
def seriesPieces (name : String) (points : List SeriesPoint) : List Piece :=
  plain "\x7b\"series\":[".toList ::
    (match points with
    | [] => []
    | p :: points =>
      seriesOpening name ++ pointPieces p ++
        (points.flatMap fun p => plain [','] :: pointPieces p) ++ [plain [']', '\x7d']]) ++
    [plain [']', '\x7d']]

theorem series_eq (t : LogTree) (kind : Sensor) (id : UInt16) (range : DayRange)
    (summary : Summary) :
    t.series kind id range summary =
      .ok (seriesPieces (seriesName kind id) (t.seriesPoints kind id range summary)) := by
  unfold series
  rw [forEachPoint_eq]
  generalize seriesName kind id = name
  cases t.seriesPoints kind id range summary with
  | nil => rfl
  | cons p points =>
    rw [feed, writePoint]
    dsimp only
    rw [feed_writePoint]
    rfl

theorem feed_cons {σ ε : Type} (receive : σ → SeriesPoint → Except ε σ) (s : σ) (p : SeriesPoint)
    (ps : List SeriesPoint) :
    feed receive s (p :: ps) = receive s p >>= fun s => feed receive s ps := by
  rw [feed]
  cases receive s p <;> rfl

/-- Points after the first, written one by one. -/
theorem feed_sendPoint (name : String) (s : Sink) (points : List SeriesPoint) :
    feed (sendPoint name) (false, s) points = do
      let s ← s.putAll (points.flatMap fun p => plain [','] :: pointPieces p)
      return (false, s) := by
  induction points generalizing s with
  | nil => rfl
  | cons p points ih =>
    rw [feed_cons, sendPoint, List.flatMap_cons]
    simp only [Bool.false_eq_true, if_false, putAll_append, putAll_cons, ih, bind_assoc, pure_bind]

theorem writeSeries_eq (t : LogTree) (kind : Sensor) (id : UInt16) (range : DayRange)
    (summary : Summary) (s : Sink) :
    t.writeSeries kind id range summary s =
      s.putAll (seriesPieces (seriesName kind id) (t.seriesPoints kind id range summary)) := by
  have hfeed (s : Bool × Sink) :
      t.forEachPoint kind id range summary (sendPoint (seriesName kind id)) s = do
        let s ← feed (sendPoint (seriesName kind id)) s (t.seriesPoints kind id range summary)
        return (s, (t.seriesPoints kind id range summary).length) := by
    rw [forEachPoint_eq]
    rfl
  unfold writeSeries
  simp only [hfeed]
  generalize seriesName kind id = name
  cases t.seriesPoints kind id range summary with
  | nil =>
    simp only [seriesPieces, List.cons_append, List.nil_append, putAll_cons, putAll_nil, bind_pure]
    rfl
  | cons p points =>
    simp only [feed_cons, sendPoint, if_true, feed_sendPoint, seriesPieces, List.cons_append,
      putAll_append, putAll_cons, putAll_nil, bind_pure, bind_assoc, pure_bind, List.length_cons,
      Nat.succ_pos]

/-- A question that is answered can be. -/
theorem supported_of_answer {q : Query} {ps : List Piece} (h : t.answer q = .ok ps) :
    q.Supported := by
  refine Classical.byContradiction fun hq => ?_
  obtain ⟨range, grouping, -, hanswer⟩ := t.answer_of_unsupported hq
  rw [hanswer] at h
  cases h

/-- **Written while it is made, an answer is written piece by piece.** -/
theorem writeTo_eq {t : LogTree} {q : Query} {ps : List Piece} (h : t.answer q = .ok ps)
    (s : Sink) : t.writeTo q s = s.putAll ps := by
  cases q with
  | chart range grouping =>
    obtain ⟨n, hn⟩ := supported_of_answer h
    obtain ⟨zones, hzones, hwrite, -⟩ := t.exists_writeBins range hn true t.zoneList
    unfold answer chart at h
    dsimp only at h
    rw [hn, hzones] at h
    cases h
    unfold writeTo writeChart
    dsimp only
    rw [hn]
    simp only [List.cons_append, hwrite, putAll_append, putAll_cons, putAll_nil, bind_pure]
  | table range =>
    cases h
    unfold writeTo writeTable table
    simp only [List.cons_append, writeRuns_eq, putAll_append, putAll_cons, putAll_nil, bind_pure]
  | series kind id range summary =>
    have hseries := (t.series_eq kind id range summary).symm.trans h
    cases hseries
    exact t.writeSeries_eq kind id range summary s

/-- **What is streamed is what is answered**, whatever the output accepts. -/
theorem stream_eq_writeAnswer (t : LogTree) (q : Query) (cause : String) (room : Option Nat) :
    t.stream q cause room = t.writeAnswer q cause room := by
  unfold stream writeAnswer
  by_cases hq : q.Supported
  · obtain ⟨ps, hps, -⟩ := t.exists_answer hq
    rw [t.writeTo_eq hps, hps]
    cases room with
    | none =>
      rw [putAll_unbounded]
      rfl
    | some room => exact outcome_putAll [] room cause ps
  · obtain ⟨range, grouping, rfl, hanswer⟩ := t.answer_of_unsupported hq
    rw [hanswer]
    unfold writeTo writeChart
    dsimp only
    cases hbins : grouping.bins with
    | none => rfl
    | some n => exact absurd ⟨n, hbins⟩ hq

end LogTree

end IrrigationLog
