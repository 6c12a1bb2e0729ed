/-
# The balance of the water counters

The counters take in water in any order of dates: a clock may be set back over midnight, or to
the same weekday of another week.  This module keeps the books of it.  All amounts are in
hundredths of a flow-unit-minute, and a unit of the lifetime counter is a hundred of them
(`WaterCounter.held`).

What comes in is kept, but for two things:

* a fold moves the water of a weekday to the lifetime counter in whole units, and **loses** what
  is left over (`Intake.lost`);
* a counter that is full **spills** what it cannot hold (`Intake.spilled`).

One intake balances exactly (`Intake.held_after`), and so do any number of them
(`WaterCounter.held_takeAll`).  Nothing is counted twice and no other water is lost, whatever the
clock does; `WaterCounter.water_conserved` draws the conclusions.
-/
import IrrigationLog.Proofs.WaterTotals

namespace IrrigationLog

/-! ## 1. Intakes -/

/-- Water that comes to the counters: when, and how much of it. -/
structure Inflow where
  time : DateTime
  amount : UInt32

/-- An inflow and the counters that it meets. -/
structure Intake where
  counters : WaterCounter
  inflow : Inflow

namespace WaterCounter

/-- The water that the counters hold. -/
def held (c : WaterCounter) : Nat := 100 * c.lifetime.toNat + c.weekTotal

/-- The counters after an inflow. -/
def take (c : WaterCounter) (d : Inflow) : WaterCounter := (c.apply d.time d.amount).1

/-- The counters after some inflows. -/
def takeAll (c : WaterCounter) (ds : List Inflow) : WaterCounter := ds.foldl take c

/-- Each inflow with the counters that it meets. -/
def intakes (c : WaterCounter) : List Inflow → List Intake
  | [] => []
  | d :: ds => ⟨c, d⟩ :: (c.take d).intakes ds

theorem takeAll_append (c : WaterCounter) (ds es : List Inflow) :
    c.takeAll (ds ++ es) = (c.takeAll ds).takeAll es := by
  simp [takeAll]

end WaterCounter

namespace Intake

open WaterCounter

variable (i : Intake)

/-- The weekday that the inflow belongs to. -/
def day : Fin 7 := i.inflow.time.date.weekday

/-- What that weekday holds before. -/
def bucket : Nat := i.counters.weekday[i.day].toNat

/-- Whether the intake folds the weekday, as it reports. -/
def folds : Bool := (i.counters.apply i.inflow.time i.inflow.amount).2

/-- The sum that the intake stores: in the lifetime counter if it folds the weekday, otherwise in
the weekday. -/
def sum : Nat :=
  if i.folds then i.counters.lifetime.toNat + i.bucket / 100
  else i.bucket + i.inflow.amount.toNat

/-- No counter can hold the sum. -/
def Saturates : Prop := largest < i.sum

instance : Decidable i.Saturates := inferInstanceAs (Decidable (largest < i.sum))

/-- What a fold cuts off. -/
def lost : Nat := if i.folds then i.bucket % 100 else 0

/-- What a full counter does not take. -/
def spilled : Nat := if i.folds then 100 * (i.sum - largest) else i.sum - largest

end Intake

/-! ## 2. One intake -/

namespace WaterCounter

/-- What some weekdays hold together, with one of them set anew. -/
theorem foldr_set_add {ns : List UInt32} {k : Nat} (hk : k < ns.length) (x : UInt32) :
    (ns.set k x).foldr (fun amount total => amount.toNat + total) 0 + ns[k].toNat =
      ns.foldr (fun amount total => amount.toNat + total) 0 + x.toNat := by
  induction ns generalizing k with
  | nil => exact absurd hk (Nat.not_lt_zero k)
  | cons n ns ih =>
    cases k with
    | zero =>
      simp only [List.set_cons_zero, List.foldr_cons, List.getElem_cons_zero]
      omega
    | succ k =>
      have hrest := ih (Nat.lt_of_succ_lt_succ hk)
      simp only [List.set_cons_succ, List.foldr_cons, List.getElem_cons_succ]
      omega

/-- **A weekday set anew** changes the week by what it holds now and held before. -/
theorem weekTotal_set (c : WaterCounter) (lifetime : UInt32) (updatedAt : Option DateTime)
    {day : Nat} (hday : day < 7) (x : UInt32) :
    weekTotal ⟨c.weekday.set day x hday, lifetime, updatedAt⟩ + c.weekday[day].toNat =
      c.weekTotal + x.toNat := by
  have hlist : day < c.weekday.toList.length := by simpa using hday
  have hset := foldr_set_add hlist x
  rw [Vector.getElem_toList] at hset
  unfold weekTotal
  rw [Vector.toList_set]
  exact hset

end WaterCounter

namespace Intake

open WaterCounter

variable {i : Intake}

/-- An intake folds the weekday unless its date is that of the last fold. -/
theorem folds_eq (i : Intake) : i.folds = !i.counters.foldedOn i.inflow.time.date := by
  unfold folds apply
  cases i.counters.foldedOn i.inflow.time.date <;> rfl

/-- Without a fold the inflow is added to its weekday. -/
theorem take_of_not_folds (h : i.folds = false) :
    i.counters.take i.inflow = ⟨i.counters.weekday.set i.day
      (saturatingAdd i.counters.weekday[i.day] i.inflow.amount),
      i.counters.lifetime, i.counters.updatedAt⟩ := by
  rw [folds_eq, Bool.not_eq_false'] at h
  unfold take apply
  dsimp only
  rw [if_pos h]
  rfl

/-- A fold moves the weekday to the lifetime counter and starts it anew with the inflow. -/
theorem take_of_folds (h : i.folds = true) :
    i.counters.take i.inflow = ⟨i.counters.weekday.set i.day i.inflow.amount,
      saturatingAdd i.counters.lifetime (i.counters.weekday[i.day] / 100),
      some i.inflow.time⟩ := by
  rw [folds_eq, Bool.not_eq_true'] at h
  unfold take apply
  dsimp only
  rw [if_neg (Bool.not_eq_true _ ▸ h)]
  rfl

/-- **An intake balances**: what is held after it, what a fold lost and what was spilled are what
was held before and what came in. -/
theorem held_after (i : Intake) :
    (i.counters.take i.inflow).held + i.lost + i.spilled =
      i.counters.held + i.inflow.amount.toNat := by
  unfold held lost spilled sum
  cases hfolds : i.folds with
  | false =>
    have hweek := weekTotal_set i.counters i.counters.lifetime i.counters.updatedAt i.day.isLt
      (saturatingAdd i.counters.weekday[i.day] i.inflow.amount)
    rw [toNat_saturatingAdd_eq, ← Fin.getElem_fin] at hweek
    rw [take_of_not_folds hfolds]
    simp only [Bool.false_eq_true, if_false]
    unfold bucket
    omega
  | true =>
    have hweek := weekTotal_set i.counters
      (saturatingAdd i.counters.lifetime (i.counters.weekday[i.day] / 100))
      (some i.inflow.time) i.day.isLt i.inflow.amount
    rw [← Fin.getElem_fin] at hweek
    have hlifetime := toNat_saturatingAdd_eq i.counters.lifetime (i.counters.weekday[i.day] / 100)
    have hunits : (i.counters.weekday[i.day] / 100).toNat = i.bucket / 100 := UInt32.toNat_div _ _
    rw [hunits] at hlifetime
    rw [take_of_folds hfolds, hlifetime]
    simp only [if_true]
    unfold bucket at *
    omega

/-- No intake lowers the lifetime counter. -/
theorem lifetime_le_take (i : Intake) :
    i.counters.lifetime ≤ (i.counters.take i.inflow).lifetime := by
  cases hfolds : i.folds with
  | false =>
    rw [take_of_not_folds hfolds]
    exact UInt32.le_refl _
  | true =>
    have hmax := i.counters.lifetime.toNat_lt
    rw [take_of_folds hfolds, UInt32.le_iff_toNat_le, toNat_saturatingAdd]
    unfold UInt32.size
    omega

/-- Nothing is spilled unless a counter is full. -/
theorem spilled_of_not_saturates (h : ¬ i.Saturates) : i.spilled = 0 := by
  have hfits : i.sum - largest = 0 := Nat.sub_eq_zero_of_le (Nat.not_lt.mp h)
  unfold spilled
  rw [hfits]
  simp

end Intake

/-! ## 3. Any number of intakes -/

namespace WaterCounter

/-- **Any number of intakes balance.** -/
theorem held_takeAll (c : WaterCounter) (ds : List Inflow) :
    (c.takeAll ds).held + ((c.intakes ds).map Intake.lost).sum +
        ((c.intakes ds).map Intake.spilled).sum =
      c.held + (ds.map fun d => d.amount.toNat).sum := by
  induction ds generalizing c with
  | nil => rfl
  | cons d ds ih =>
    have hone := Intake.held_after ⟨c, d⟩
    have hrest := ih (c.take d)
    dsimp only at hone
    simp only [takeAll, List.foldl_cons, intakes, List.map_cons, List.sum_cons] at hrest ⊢
    omega

/-- The lifetime counter never goes back. -/
theorem lifetime_le_takeAll (c : WaterCounter) (ds : List Inflow) :
    c.lifetime ≤ (c.takeAll ds).lifetime := by
  induction ds generalizing c with
  | nil => exact UInt32.le_refl _
  | cons d ds ih => exact UInt32.le_trans (Intake.lifetime_le_take ⟨c, d⟩) (ih (c.take d))

/-- What is lost, is lost in folds. -/
theorem sum_map_lost (is : List Intake) :
    (is.map Intake.lost).sum = ((is.filter Intake.folds).map fun i => i.bucket % 100).sum := by
  induction is with
  | nil => rfl
  | cons i is ih =>
    rw [List.map_cons, List.sum_cons, ih, Intake.lost]
    cases hfolds : i.folds with
    | false =>
      rw [List.filter_cons_of_neg (by simp [hfolds])]
      simp
    | true =>
      rw [List.filter_cons_of_pos hfolds]
      simp

/-- A fold loses less than a unit. -/
theorem sum_lost_le (is : List Intake) :
    ((is.map fun i => i.bucket % 100).sum) ≤ 99 * is.length := by
  induction is with
  | nil => exact Nat.le_refl 0
  | cons i is ih =>
    simp only [List.map_cons, List.sum_cons, List.length_cons]
    omega

/-- **Water is conserved up to what folds cut off**, whatever the clock does.  The counters never
hold more than was in them and came in, and the lifetime counter never goes back.  As long as no
counter is full, what is missing is exactly what the folds cut off, less than a unit of the
lifetime counter for each of them and nothing in between. -/
theorem water_conserved (c : WaterCounter) (ds : List Inflow) :
    (c.takeAll ds).held ≤ c.held + (ds.map fun d => d.amount.toNat).sum ∧
    (∀ seen, seen <+: ds → (c.takeAll seen).lifetime ≤ (c.takeAll ds).lifetime) ∧
    ((∀ i ∈ c.intakes ds, ¬ i.Saturates) →
      (c.takeAll ds).held +
          (((c.intakes ds).filter Intake.folds).map fun i => i.bucket % 100).sum =
        c.held + (ds.map fun d => d.amount.toNat).sum) ∧
    (((c.intakes ds).filter Intake.folds).map fun i => i.bucket % 100).sum ≤
      99 * ((c.intakes ds).filter Intake.folds).length := by
  have hbalance := held_takeAll c ds
  refine ⟨by omega, ?_, ?_, sum_lost_le _⟩
  · rintro seen ⟨rest, rfl⟩
    rw [takeAll_append]
    exact lifetime_le_takeAll _ rest
  · intro hfree
    have hspilled : ((c.intakes ds).map Intake.spilled).sum = 0 := by
      refine List.sum_eq_zero_iff_forall_eq_nat.mpr fun n hn => ?_
      obtain ⟨i, hi, rfl⟩ := List.mem_map.mp hn
      exact Intake.spilled_of_not_saturates (hfree i hi)
    rw [← sum_map_lost]
    omega

/-- A Thursday's water, more of it on that day, then the clock a week ahead and set back again. -/
def clockSetBack : List Inflow :=
  [⟨Clock.now ⟨0⟩, 250⟩, ⟨Clock.now ⟨3600⟩, 180⟩, ⟨Clock.now ⟨604800⟩, 99⟩,
    ⟨Clock.now ⟨7200⟩, 10⟩]

/-- Three folds of one weekday: they cut off nothing, 30 and 99 of 539 hundredths. -/
theorem water_conserved_of_clockSetBack :
    (∀ i ∈ ({} : WaterCounter).intakes clockSetBack, ¬ i.Saturates) ∧
    (takeAll {} clockSetBack).held + ([0, 30, 99] : List Nat).sum = 0 + 539 ∧
    (takeAll {} clockSetBack).lifetime = 4 ∧
    (takeAll {} clockSetBack).weekday = #v[0, 0, 0, 0, 10, 0, 0] := by
  have hfree : ∀ i ∈ ({} : WaterCounter).intakes clockSetBack, ¬ i.Saturates := by
    decide +kernel
  have hlost : ((({} : WaterCounter).intakes clockSetBack).filter Intake.folds).map
      (fun i => i.bucket % 100) = [0, 30, 99] := by
    decide +kernel
  have hbalance := (water_conserved {} clockSetBack).2.2.1 hfree
  rw [hlost] at hbalance
  exact ⟨hfree, hbalance, by decide +kernel, by decide +kernel⟩

end WaterCounter

end IrrigationLog
