/-
# Bins are exact means

A chart gathers the runs of a zone in slots, one for each bin of its grouping, and shows the mean
of each slot that holds a run.  This module says what that is for any runs in any order.

* **Bins.**  A time falls into a bin by its hour, by the days that have passed since a Sunday, or
  by its month (`Grouping.InBin`), and into one only.
* **Means.**  The bins with a run are shown in order, each with the sum of the minutes of its runs
  divided by their number and rounded down (`ZoneBins.mem_bins_iff`).
* **Order.**  Sums and numbers are all that is kept of the runs, so that their order is forgotten
  (`ZoneBins.gather_perm`).
* **Words.**  The same is done once more in words of fixed size and in an array of as many slots as
  any grouping needs (`WordBins`).  There a sum may overflow, a run may find no slot, and a mean may
  divide by zero; each of these is a fault.  A slot that took `k` runs holds at most 65535 times `k`
  minutes, so that fewer than 2^32 runs are gathered and shown without a fault, and with the same
  numbers (`WordBins.gather_eq`, `WordBins.bins_eq`).

`ZoneBins.means_of_runs` is the whole of it.
-/
import Mathlib.Algebra.Order.BigOperators.Group.List
import Mathlib.Data.Rat.Floor
import IrrigationLog.Proofs.ChartFromTable
import IrrigationLog.Proofs.SeriesRuns

namespace IrrigationLog

/-! ## 1. Bins -/

/-- 4 January 1970, a Sunday. -/
def Date.firstSunday : Date := { epoch with day := 4, day_bounds := by decide }

namespace Grouping

/-- Whether a time falls into a bin: by its hour, by the days since a Sunday, or by its month,
where January has bin 0. -/
def InBin (t : DateTime) (i : Nat) : Grouping → Prop
  | hourly => t.time.hour = i
  | daily => i < 7 ∧ (7 : Int) ∣ t.date.dayNumber - Date.firstSunday.dayNumber - i
  | monthly => t.date.month = i + 1
  | numeric => False

instance (t : DateTime) (i : Nat) : (grouping : Grouping) → Decidable (grouping.InBin t i)
  | hourly => inferInstanceAs (Decidable (_ = _))
  | daily => inferInstanceAs (Decidable (_ ∧ _))
  | monthly => inferInstanceAs (Decidable (_ = _))
  | numeric => inferInstanceAs (Decidable False)

/-- **The bin of a time is the one that it falls into.** -/
theorem binOf_eq_some_iff {grouping : Grouping} {t : DateTime} {i : Nat} :
    grouping.binOf t = some i ↔ grouping.InBin t i := by
  cases grouping with
  | hourly => exact Option.some_inj
  | daily =>
    have hsunday : Date.firstSunday.dayNumber = 3 := by decide
    have hweekday : (t.date.weekday : Nat) = ((t.date.dayNumber + 4) % 7).toNat := by
      rw [Date.weekday, Fin.val_ofNat]
      omega
    simp only [binOf, InBin, hsunday, Option.some.injEq, hweekday]
    omega
  | monthly =>
    have hmonth := t.date.month_bounds
    simp only [binOf, InBin, Option.some.injEq]
    omega
  | numeric => simp [binOf, InBin]

/-- The minutes of the runs that fall into a bin. -/
def minutesIn (grouping : Grouping) (i : Nat) (runs : List WateringRun) : List Int :=
  (runs.filter fun r => grouping.InBin r.start i).map WateringRun.minutes

theorem minutesIn_eq (grouping : Grouping) (i : Nat) (runs : List WateringRun) :
    grouping.minutesIn i runs =
      (runs.filter fun r => grouping.binOf r.start = some i).map WateringRun.minutes := by
  simp only [minutesIn, binOf_eq_some_iff]

/-- Runs in another order have the same minutes in a bin, in another order. -/
theorem perm_minutesIn {runs other : List WateringRun} (h : other.Perm runs) (grouping : Grouping)
    (i : Nat) : (grouping.minutesIn i other).Perm (grouping.minutesIn i runs) :=
  (h.filter _).map _

end Grouping

/-- Minutes are kept in a word. -/
theorem WateringRun.minutes_bounds (r : WateringRun) : 0 ≤ r.minutes ∧ r.minutes ≤ 65535 := by
  have hword := r.duration.toNat_lt
  unfold minutes
  omega

theorem Grouping.bounds_of_mem_minutesIn {grouping : Grouping} {i : Nat} {runs : List WateringRun}
    {n : Int} (h : n ∈ grouping.minutesIn i runs) : 0 ≤ n ∧ n ≤ 65535 := by
  obtain ⟨r, -, rfl⟩ := List.mem_map.mp h
  exact r.minutes_bounds

/-! ## 2. Means -/

/-- A mean of numbers that are not below zero is rounded down when it is cut off. -/
theorem tdiv_eq_floor {ns : List Int} (h : ∀ n ∈ ns, 0 ≤ n) :
    ns.sum.tdiv ns.length = ⌊(ns.sum : ℚ) / ns.length⌋ := by
  rw [Rat.floor_intCast_div_natCast, Int.tdiv_eq_ediv_of_nonneg (List.sum_nonneg h)]

namespace ZoneBins

/-- The runs of a zone gathered one by one, if the grouping has bins. -/
def gather (zone : UInt8) (grouping : Grouping) (runs : List WateringRun) :
    Except StoreError ZoneBins :=
  (empty zone grouping).map fun b => runs.foldl add b

variable {zone : UInt8} {grouping : Grouping} {n : Nat} {runs other : List WateringRun}

theorem gather_eq (h : grouping.bins = some n) (zone : UInt8) (runs : List WateringRun) :
    gather zone grouping runs = .ok (runs.foldl add (fresh zone grouping n)) := by
  rw [gather, empty_eq h]
  rfl

theorem grouping_foldl_add (b : ZoneBins) (runs : List WateringRun) :
    (runs.foldl add b).grouping = b.grouping := by
  induction runs generalizing b with
  | nil => rfl
  | cons r runs ih => rw [List.foldl_cons, ih, grouping_add]

/-- **A bin is shown exactly if a run falls into it**, with the mean of its runs. -/
theorem mem_bins_iff (h : grouping.bins = some n) {i : Nat} {mean : Int} :
    (i, mean) ∈ (runs.foldl add (fresh zone grouping n)).bins ↔
      grouping.minutesIn i runs ≠ [] ∧
        mean = ⌊((grouping.minutesIn i runs).sum : ℚ) / (grouping.minutesIn i runs).length⌋ := by
  have hfloor := tdiv_eq_floor fun m (hm : m ∈ grouping.minutesIn i runs) =>
    (Grouping.bounds_of_mem_minutesIn hm).1
  rw [bins_foldl_add, mem_meansByBin_iff, ← hfloor, ← grouping.minutesIn_eq]
  constructor
  · rintro ⟨-, hmean⟩
    exact hmean
  · intro hmean
    refine ⟨?_, hmean⟩
    -- A bin with a run is one of the bins of the grouping.
    obtain ⟨minutes, hminutes⟩ := List.exists_mem_of_ne_nil _ hmean.1
    obtain ⟨r, hr, -⟩ := List.mem_map.mp hminutes
    have hin : grouping.InBin r.start i := of_decide_eq_true (List.mem_filter.mp hr).2
    obtain ⟨j, hj, hlt⟩ := Grouping.exists_binOf h r.start
    obtain rfl : j = i := Option.some.inj (hj.symm.trans (Grouping.binOf_eq_some_iff.mpr hin))
    exact hlt

/-- **The order of the runs is forgotten.** -/
theorem gather_perm (h : grouping.bins = some n) (zone : UInt8) (hperm : other.Perm runs) :
    gather zone grouping other = gather zone grouping runs := by
  have hslots : (other.foldl add (fresh zone grouping n)).slots =
      (runs.foldl add (fresh zone grouping n)).slots := by
    refine List.ext_getElem? fun i => ?_
    have hminutes := grouping.perm_minutesIn hperm i
    rw [fresh, getElem?_slots_foldl_add, getElem?_slots_foldl_add]
    dsimp only
    simp only [← grouping.minutesIn_eq, Mean.foldl_add, hminutes.sum_eq, hminutes.length_eq]
  have hmatched : (other.foldl add (fresh zone grouping n)).matched =
      (runs.foldl add (fresh zone grouping n)).matched := by
    rw [matched_foldl_fresh h, matched_foldl_fresh h, hperm.length_eq]
  rw [gather_eq h, gather_eq h, Except.ok.injEq, ZoneBins.mk.injEq]
  simp only [zone_foldl_add, grouping_foldl_add, hslots, hmatched, and_self]

end ZoneBins

/-! ## 3. Words -/

/-- What could go wrong while runs are gathered in words. -/
inductive WordFault where
  /-- A sum or a number does not fit into its word. -/
  | overflow
  /-- There is no slot for a run. -/
  | noSlot
  | divisionByZero
  deriving DecidableEq

/-- The sum and the number of the values in a slot, in words. -/
structure WordMean where
  sum : Int64 := 0
  count : UInt32 := 0
  deriving DecidableEq

namespace WordMean

/-- What a slot holds, in numbers of any size. -/
def exact (m : WordMean) : Mean := ⟨m.sum.toInt, m.count.toNat⟩

/-- The slot with one more value; the words must be worth the exact sum and number. -/
def add (m : WordMean) (value : Int64) : Except WordFault WordMean :=
  if (m.sum + value).toInt = m.sum.toInt + value.toInt ∧
      (m.count + 1).toNat = m.count.toNat + 1 then
    .ok ⟨m.sum + value, m.count + 1⟩
  else .error .overflow

/-- The sum divided by the number. -/
def value (m : WordMean) : Except WordFault Int64 :=
  if m.count = 0 then .error .divisionByZero else .ok (m.sum / .ofNat m.count.toNat)

end WordMean

/-- The slots are as many as any grouping needs, of which the first `len` are used. -/
structure WordBins where
  zone : UInt8
  grouping : Grouping
  slots : Vector WordMean Grouping.maxBins
  len : Nat
  matched : UInt64
  len_le : len ≤ Grouping.maxBins

namespace WordBins

/-- What the used slots hold, in numbers of any size. -/
def exact (w : WordBins) : ZoneBins :=
  ⟨w.zone, w.grouping, (w.slots.toList.take w.len).map WordMean.exact, w.matched.toNat⟩

/-- The slots with one more run. -/
def add (w : WordBins) (r : WateringRun) : Except WordFault WordBins :=
  match w.grouping.binOf r.start with
  | none => .error .noSlot
  | some i =>
    if h : i < w.len then
      have hi : i < Grouping.maxBins := Nat.lt_of_lt_of_le h w.len_le
      match w.slots[i].add (.ofNat r.duration.toNat) with
      | .error fault => .error fault
      | .ok slot =>
        if (w.matched + 1).toNat = w.matched.toNat + 1 then
          .ok { w with slots := w.slots.set i slot, matched := w.matched + 1 }
        else .error .overflow
    else .error .noSlot

/-- The used slots that hold a run, each with its number and mean. -/
def bins (w : WordBins) : Except WordFault (List (Nat × Int64)) :=
  ((w.slots.toList.take w.len).zipIdx.filter fun s => s.1.count ≠ 0).mapM fun s =>
    s.1.value.map fun mean => (s.2, mean)

/-- No grouping needs more slots than there are. -/
theorem bins_le_maxBins {grouping : Grouping} {n : Nat} (h : grouping.bins = some n) :
    n ≤ Grouping.maxBins := by
  cases grouping <;> cases h <;> decide

/-- The runs of a zone gathered one by one. -/
def gather (zone : UInt8) (grouping : Grouping) (runs : List WateringRun) :
    Except WordFault WordBins :=
  match h : grouping.bins with
  | none => .error .noSlot
  | some n => runs.foldlM add
      ⟨zone, grouping, Vector.replicate Grouping.maxBins {}, n, 0, bins_le_maxBins h⟩

end WordBins

/-! ## 4. No word overflows -/

namespace WordMean

/-- **A slot with room takes the minutes of a run.** -/
theorem add_minutes {m : WordMean} (hlow : 0 ≤ m.exact.sum)
    (hhigh : m.exact.sum ≤ 65535 * m.exact.count) (hroom : m.exact.count + 1 < 2 ^ 32)
    (r : WateringRun) :
    ∃ u, m.add (.ofNat r.duration.toNat) = .ok u ∧ u.exact = m.exact.add r.minutes := by
  have hminutes := r.minutes_bounds
  have hvalue : (Int64.ofNat r.duration.toNat).toInt = r.minutes :=
    Int64.toInt_ofNat_of_lt (Nat.lt_trans r.duration.toNat_lt (by decide))
  unfold exact at hlow hhigh hroom
  dsimp only at hlow hhigh hroom
  have hsum : (m.sum + .ofNat r.duration.toNat).toInt = m.sum.toInt + r.minutes := by
    rw [Int64.toInt_add, hvalue]
    exact Int.bmod_eq_of_le (by omega) (by omega)
  have hcount : (m.count + 1).toNat = m.count.toNat + 1 := by
    rw [UInt32.toNat_add]
    exact Nat.mod_eq_of_lt hroom
  refine ⟨⟨m.sum + .ofNat r.duration.toNat, m.count + 1⟩, ?_, ?_⟩
  · rw [add, if_pos ⟨by rw [hsum, hvalue], hcount⟩]
  · rw [exact, exact, Mean.add, hsum, hcount]

/-- **A slot with a value has a mean.** -/
theorem value_eq {m : WordMean} (hlow : 0 ≤ m.exact.sum) (hcount : m.count ≠ 0) :
    ∃ mean, m.value = .ok mean ∧ mean.toInt = m.exact.value := by
  have hsmall := m.count.toNat_lt
  have hnumber : (Int64.ofNat m.count.toNat).toInt = m.count.toNat :=
    Int64.toInt_ofNat_of_lt (by omega)
  have hmin : m.sum ≠ Int64.minValue := by
    rintro hsum
    rw [exact, hsum] at hlow
    exact absurd hlow (by decide : ¬ (0 : Int) ≤ Int64.minValue.toInt)
  refine ⟨m.sum / .ofNat m.count.toNat, by rw [value, if_neg hcount], ?_⟩
  rw [Int64.toInt_div_of_ne_left _ _ hmin, hnumber]
  rfl

end WordMean

namespace ZoneBins

/-- Each slot holds at most as many values as there were runs, and none above 65535. -/
def Bounded (b : ZoneBins) : Prop :=
  ∀ m ∈ b.slots, 0 ≤ m.sum ∧ m.sum ≤ 65535 * m.count ∧ m.count ≤ b.matched

theorem bounded_empty (zone : UInt8) (grouping : Grouping) (n : Nat) :
    Bounded (fresh zone grouping n) := by
  intro m hm
  rw [List.eq_of_mem_replicate hm]
  exact ⟨Int.le_refl 0, Int.le_refl 0, Nat.le_refl 0⟩

/-- **One more run keeps the bounds.** -/
theorem Bounded.add {b : ZoneBins} (h : b.Bounded) (hfits : b.Fits) (r : WateringRun) :
    (b.add r).Bounded := by
  intro m hm
  have hminutes := r.minutes_bounds
  obtain ⟨i, hi⟩ := List.mem_iff_getElem?.mp hm
  rw [getElem?_slots_add] at hi
  obtain ⟨old, hold, rfl⟩ := Option.map_eq_some_iff.mp hi
  obtain ⟨hlow, hhigh, hcount⟩ := h old (List.mem_of_getElem? hold)
  rw [(hfits.add r).2]
  split
  · simp only [Mean.add]
    omega
  · omega

theorem Bounded.foldl_add {b : ZoneBins} (h : b.Bounded) (hfits : b.Fits)
    (runs : List WateringRun) : (runs.foldl ZoneBins.add b).Bounded := by
  induction runs generalizing b with
  | nil => exact h
  | cons r runs ih => exact ih (h.add hfits r) (hfits.add r).1

end ZoneBins

namespace WordBins

variable {w : WordBins} {b : ZoneBins} {zone : UInt8} {grouping : Grouping} {n : Nat}
  {runs : List WateringRun}

theorem length_slots_exact (w : WordBins) : w.exact.slots.length = w.len := by
  have := w.len_le
  rw [exact, List.length_map, List.length_take, Vector.length_toList]
  omega

theorem getElem?_slots_exact (w : WordBins) {i : Nat} (h : i < w.len)
    (hi : i < Grouping.maxBins) : w.exact.slots[i]? = some w.slots[i].exact := by
  rw [exact, List.getElem?_map, List.getElem?_take, if_pos h]
  simp [hi]

/-- **One more run is taken without a fault**, as long as there were few. -/
theorem add_eq (hfits : w.exact.Fits) (hbounded : w.exact.Bounded)
    (hroom : w.exact.matched + 1 < 2 ^ 32) (r : WateringRun) :
    ∃ u, w.add r = .ok u ∧ u.exact = w.exact.add r := by
  obtain ⟨i, hbin, hlt⟩ := Grouping.exists_binOf hfits r.start
  have hgrouping : w.grouping.binOf r.start = some i := hbin
  have hlen : i < w.len := by
    rw [← w.length_slots_exact]
    exact hlt
  have hi : i < Grouping.maxBins := Nat.lt_of_lt_of_le hlen w.len_le
  have hslot := w.getElem?_slots_exact hlen hi
  obtain ⟨hlow, hhigh, hcount⟩ := hbounded _ (List.mem_of_getElem? hslot)
  obtain ⟨slot, hadd, hexact⟩ := WordMean.add_minutes hlow hhigh (by omega) r
  have hmatched : (w.matched + 1).toNat = w.matched.toNat + 1 := by
    have hsmall : w.matched.toNat + 1 < 2 ^ 32 := hroom
    rw [UInt64.toNat_add]
    exact Nat.mod_eq_of_lt (by simp only [UInt64.toNat_one]; omega)
  refine ⟨{ w with slots := w.slots.set i slot, matched := w.matched + 1 }, ?_, ?_⟩
  · unfold add
    simp only [hgrouping, dif_pos hlen, hadd, if_pos hmatched]
  · have hslots : ((w.slots.set i slot).toList.take w.len).map WordMean.exact =
        w.exact.slots.modify i fun m => m.add r.minutes := by
      refine List.ext_getElem? fun j => ?_
      rw [Vector.toList_set, List.take_set, List.map_set, hexact, List.getElem?_modify]
      change (w.exact.slots.set i _)[j]? = _
      by_cases hj : i = j
      · subst hj
        rw [List.getElem?_set_self hlt, hslot]
        simp
      · simp [List.getElem?_set_ne hj, hj]
    unfold ZoneBins.add
    rw [hbin]
    dsimp only
    rw [if_pos hlt, exact, hslots, hmatched]
    rfl

/-- **Fewer than 2^32 runs are gathered without a fault.** -/
theorem foldlM_add (hfits : w.exact.Fits) (hbounded : w.exact.Bounded)
    (hroom : w.exact.matched + runs.length < 2 ^ 32) :
    ∃ u, runs.foldlM add w = .ok u ∧ u.exact = runs.foldl ZoneBins.add w.exact := by
  induction runs generalizing w with
  | nil => exact ⟨w, rfl, rfl⟩
  | cons r runs ih =>
    rw [List.length_cons] at hroom
    obtain ⟨v, hv, hexact⟩ := add_eq hfits hbounded (by omega) r
    have hnext : v.exact.matched + runs.length < 2 ^ 32 := by
      rw [hexact, (hfits.add r).2]
      omega
    obtain ⟨u, hu, hfold⟩ := ih (hexact ▸ (hfits.add r).1) (hexact ▸ hbounded.add hfits r) hnext
    refine ⟨u, ?_, ?_⟩
    · rw [List.foldlM_cons, hv]
      exact hu
    · rw [hfold, hexact, List.foldl_cons]

theorem gather_eq (h : grouping.bins = some n) (zone : UInt8) (hshort : runs.length < 2 ^ 32) :
    ∃ w, gather zone grouping runs = .ok w ∧
      w.exact = runs.foldl ZoneBins.add (.fresh zone grouping n) := by
  have hempty : exact ⟨zone, grouping, Vector.replicate Grouping.maxBins {}, n, 0,
      bins_le_maxBins h⟩ = .fresh zone grouping n := by
    rw [exact, Vector.toList_replicate, List.take_replicate, List.map_replicate,
      Nat.min_eq_left (bins_le_maxBins h)]
    rfl
  obtain ⟨w, hw, hexact⟩ := @foldlM_add ⟨zone, grouping, Vector.replicate Grouping.maxBins {}, n, 0,
    bins_le_maxBins h⟩ runs (hempty ▸ ZoneBins.fits_fresh h zone)
    (hempty ▸ ZoneBins.bounded_empty zone grouping n) (by rw [hempty]; simpa using hshort)
  refine ⟨w, ?_, hempty ▸ hexact⟩
  unfold gather
  split
  · rename_i hnone
    rw [h] at hnone
    cases hnone
  · rename_i m hm
    obtain rfl : n = m := Option.some.inj (h.symm.trans hm)
    exact hw

/-- A slot is left out of both lists or shown in both, with the same mean. -/
theorem mapM_value_eq {slots : List WordMean} (h : ∀ m ∈ slots, 0 ≤ m.exact.sum) (first : Nat) :
    ∃ shown, (((slots.zipIdx first).filter fun s => s.1.count ≠ 0).mapM fun s =>
        s.1.value.map fun mean => (s.2, mean)) = .ok shown ∧
      shown.map (fun s => (s.1, s.2.toInt)) =
        (((slots.map WordMean.exact).zipIdx first).filter fun s => !s.1.isEmpty).map fun s =>
          (s.2, s.1.value) := by
  induction slots generalizing first with
  | nil => exact ⟨[], rfl, rfl⟩
  | cons m slots ih =>
    obtain ⟨shown, hshown, hsame⟩ := ih (fun u hu => h u (List.mem_cons_of_mem _ hu)) (first + 1)
    rw [List.zipIdx_cons, List.map_cons, List.zipIdx_cons]
    by_cases hcount : m.count = 0
    · have hempty : m.exact.isEmpty = true := by rw [WordMean.exact, hcount]; rfl
      rw [List.filter_cons_of_neg (by simp [hcount]), List.filter_cons_of_neg (by simp [hempty])]
      exact ⟨shown, hshown, hsame⟩
    · obtain ⟨mean, hmean, hvalue⟩ := WordMean.value_eq (h m List.mem_cons_self) hcount
      have hfull : m.exact.isEmpty = false := by
        have hne : m.count.toNat ≠ 0 := fun hzero => hcount (UInt32.toNat_inj.mp hzero)
        simpa [Mean.isEmpty, WordMean.exact] using hne
      rw [List.filter_cons_of_pos (by simp [hcount]), List.filter_cons_of_pos (by simp [hfull])]
      refine ⟨(first, mean) :: shown, ?_, ?_⟩
      · rw [List.mapM_cons, hshown, hmean]
        rfl
      · rw [List.map_cons, List.map_cons, hsame, hvalue]

/-- **What is shown in words is what is shown.** -/
theorem bins_eq (hbounded : w.exact.Bounded) :
    ∃ shown, w.bins = .ok shown ∧ shown.map (fun s => (s.1, s.2.toInt)) = w.exact.bins :=
  mapM_value_eq (fun m hm => (hbounded m.exact (List.mem_map_of_mem hm)).1) 0

end WordBins

/-! ## 5. Any runs -/

namespace ZoneBins

variable {zone : UInt8} {grouping : Grouping} {runs : List WateringRun}

/-- **Bins are exact means of their runs, and forget in which order they came.**  All runs are
taken.  The bins shown are those that a run falls into, in order, each with the sum of its minutes
divided by their number and rounded down.  Gathered in words, the runs find their slots, no word
overflows, nothing is divided by zero, and the same is shown. -/
theorem means_of_runs (zone : UInt8) {grouping : Grouping} (hgrouping : grouping ≠ .numeric)
    {runs : List WateringRun} (hshort : runs.length < 2 ^ 32) :
    ∃ b, gather zone grouping runs = .ok b ∧
      b.matched = runs.length ∧
      (b.bins.Pairwise fun c d => c.1 < d.1) ∧
      (∀ i mean, (i, mean) ∈ b.bins ↔ grouping.minutesIn i runs ≠ [] ∧
        mean = ⌊((grouping.minutesIn i runs).sum : ℚ) / (grouping.minutesIn i runs).length⌋) ∧
      (∀ i mean, (i, mean) ∈ b.bins → ∃ least greatest,
        (grouping.minutesIn i runs).min? = some least ∧
        (grouping.minutesIn i runs).max? = some greatest ∧ least ≤ mean ∧ mean ≤ greatest) ∧
      (∀ other, other.Perm runs → gather zone grouping other = .ok b) ∧
      ∃ w shown, WordBins.gather zone grouping runs = .ok w ∧ w.exact = b ∧
        w.bins = .ok shown ∧ shown.map (fun s => (s.1, s.2.toInt)) = b.bins := by
  obtain ⟨n, hn⟩ : ∃ n, grouping.bins = some n := by
    cases grouping with
    | numeric => exact absurd rfl hgrouping
    | hourly | daily | monthly => exact ⟨_, rfl⟩
  have hfits := fits_fresh hn zone
  obtain ⟨w, hw, hexact⟩ := WordBins.gather_eq hn zone hshort
  have hbounded : w.exact.Bounded :=
    hexact ▸ (bounded_empty zone grouping n).foldl_add hfits runs
  obtain ⟨shown, hshown, hsame⟩ := WordBins.bins_eq hbounded
  refine ⟨_, gather_eq hn zone runs, ?_, ?_, fun i mean => mem_bins_iff hn, ?_, ?_,
    w, shown, hw, hexact, hshown, hexact ▸ hsame⟩
  · exact matched_foldl_fresh hn zone runs
  · rw [bins_foldl_add]
    exact pairwise_meansByBin
  · intro i mean hmean
    obtain ⟨hne, rfl⟩ := (mem_bins_iff hn).mp hmean
    rw [← tdiv_eq_floor fun m hm => (Grouping.bounds_of_mem_minutesIn hm).1]
    exact exists_mean_bounds hne
  · intro other hperm
    rw [gather_perm hn zone hperm, gather_eq hn]

/-- A run of some minutes that started at an hour of a day of the count. -/
def runAt (day : Date) (hour : Nat) (duration : UInt16) : WateringRun :=
  ⟨⟨day, .ofSeconds (3600 * hour)⟩, 1, duration, 0, 100, 100⟩

/-- A Saturday, the Sunday after it, and the first day of the count, which was a Thursday. -/
def threeDays : List WateringRun :=
  [runAt ⟨2024, 5, 11, by decide, by decide, by decide⟩ 23 8,
    runAt ⟨2024, 5, 12, by decide, by decide, by decide⟩ 0 12,
    runAt .epoch 6 65535, runAt ⟨2024, 5, 11, by decide, by decide, by decide⟩ 5 7]

/-- Saturday is the last day of the week; its mean of seven and a half minutes is rounded down. -/
theorem means_of_runs_of_threeDays :
    Grouping.daily ≠ .numeric ∧ threeDays.length < 2 ^ 32 ∧
    ∃ b, gather 1 .daily threeDays = .ok b ∧ gather 1 .daily threeDays.reverse = .ok b ∧
      b.matched = 4 ∧ b.bins = [(0, 12), (4, 65535), (6, 7)] ∧
      ∃ w shown, WordBins.gather 1 .daily threeDays = .ok w ∧ w.bins = .ok shown ∧
        shown.map (fun s => (s.1, s.2.toInt)) = [(0, 12), (4, 65535), (6, 7)] := by
  have hgrouping : Grouping.daily ≠ .numeric := by decide
  have hshort : threeDays.length < 2 ^ 32 := by decide
  obtain ⟨b, hb, hmatched, -, -, -, hperm, w, shown, hw, -, hshown, hsame⟩ :=
    means_of_runs 1 hgrouping hshort
  have hbins : b.bins = [(0, 12), (4, 65535), (6, 7)] := by
    have hgathered : (gather 1 .daily threeDays).map bins = .ok [(0, 12), (4, 65535), (6, 7)] := by
      decide +kernel
    rw [hb] at hgathered
    exact Except.ok.inj hgathered
  refine ⟨hgrouping, hshort, b, hb, hperm _ (List.reverse_perm _), hmatched, hbins, w, shown, hw,
    hshown, ?_⟩
  rw [hsame, hbins]

end ZoneBins

end IrrigationLog
