/-
# Uses of water on one date

The counters take the water of a run by the date of the clock.  On a date they fold one weekday,
at the first use, and add up what comes then; so the order of the uses within a date shows in
nothing but the time of the fold.

* Counters are alike (`WaterCounter.SameDay`) if they hold the same and were last folded on the
  same date.  A use keeps them alike (`SameDay.use`).
* Two uses on one date commute (`WaterCounter.sameDay_use_use`).
* The same uses in two orders leave counters alike if the dates go back in neither
  (`WaterCounter.sameDay_useAll`).
-/
import IrrigationLog.Proofs.WaterTotals

namespace IrrigationLog

namespace WaterCounter

/-! ## 1. Counters that are alike -/

/-- Counters that hold the same and were last folded on the same date. -/
structure SameDay (c d : WaterCounter) : Prop where
  weekday : c.weekday = d.weekday
  lifetime : c.lifetime = d.lifetime
  date : c.updatedAt.map DateTime.date = d.updatedAt.map DateTime.date

namespace SameDay

variable {c d e : WaterCounter}

theorem refl (c : WaterCounter) : SameDay c c := ⟨rfl, rfl, rfl⟩

theorem trans (h : SameDay c d) (h' : SameDay d e) : SameDay c e :=
  ⟨h.weekday.trans h'.weekday, h.lifetime.trans h'.lifetime, h.date.trans h'.date⟩

/-- It matters on which date counters were folded, but not when. -/
theorem foldedOn (h : SameDay c d) (day : Date) : c.foldedOn day = d.foldedOn day := by
  have hany (c : WaterCounter) :
      c.foldedOn day = (c.updatedAt.map DateTime.date).any fun last => last = day := by
    unfold WaterCounter.foldedOn
    cases c.updatedAt <;> rfl
  rw [hany, hany, h.date]

/-- A use keeps counters alike. -/
theorem use (h : SameDay c d) (u : WaterUse) : SameDay (c.use u).1 (d.use u).1 := by
  by_cases hfolded : c.foldedOn u.date = true
  · rw [use_of_foldedOn hfolded, use_of_foldedOn (h.foldedOn u.date ▸ hfolded)]
    refine ⟨?_, h.lifetime, h.date⟩
    dsimp only
    rw [h.weekday]
  · rw [use_of_not_foldedOn hfolded, use_of_not_foldedOn (h.foldedOn u.date ▸ hfolded)]
    refine ⟨?_, ?_, rfl⟩
    · dsimp only
      rw [h.weekday]
    · dsimp only
      rw [h.weekday, h.lifetime]

theorem useAll (h : SameDay c d) (us : List WaterUse) : SameDay (c.useAll us) (d.useAll us) := by
  induction us generalizing c d with
  | nil => exact h
  | cons u us ih => exact ih (h.use u)

end SameDay

/-! ## 2. Two uses -/

/-- A saturating sum does not depend on the order. -/
theorem saturatingAdd_right_comm (a x y : UInt32) :
    saturatingAdd (saturatingAdd a x) y = saturatingAdd (saturatingAdd a y) x := by
  refine UInt32.toNat_inj.mp ?_
  simp only [toNat_saturatingAdd_eq]
  omega

theorem saturatingAdd_comm (x y : UInt32) : saturatingAdd x y = saturatingAdd y x := by
  refine UInt32.toNat_inj.mp ?_
  simp only [toNat_saturatingAdd_eq]
  omega

/-- After a use counters were last folded on its date. -/
theorem foldedOn_use (c : WaterCounter) (u : WaterUse) : (c.use u).1.foldedOn u.date = true := by
  by_cases hfolded : c.foldedOn u.date = true
  · rw [use_of_foldedOn hfolded]
    exact hfolded
  · rw [use_of_not_foldedOn hfolded]
    exact decide_eq_true rfl

/-- **Two uses on one date** commute: the first of them folds the weekday, if it was not folded on
that date, and both are added up in it. -/
theorem sameDay_use_use (c : WaterCounter) {u v : WaterUse} (hdate : u.date = v.date) :
    SameDay ((c.use u).1.use v).1 ((c.use v).1.use u).1 := by
  have huv : (c.use u).1.foldedOn v.date = true := hdate ▸ c.foldedOn_use u
  have hvu : (c.use v).1.foldedOn u.date = true := hdate ▸ c.foldedOn_use v
  rw [use_of_foldedOn huv, use_of_foldedOn hvu]
  obtain ⟨⟨date, time⟩, duration, flowRate⟩ := u
  obtain ⟨⟨_, time'⟩, duration', flowRate'⟩ := v
  obtain rfl : date = _ := hdate
  by_cases hfolded : c.foldedOn date = true
  · rw [use_of_foldedOn hfolded, use_of_foldedOn hfolded]
    refine ⟨?_, rfl, rfl⟩
    simp [WaterUse.date, saturatingAdd_right_comm]
  · rw [use_of_not_foldedOn hfolded, use_of_not_foldedOn hfolded]
    refine ⟨?_, rfl, rfl⟩
    simp [WaterUse.date, saturatingAdd_comm]

/-! ## 3. Any number of uses -/

/-- **A use moved behind** some uses on its date. -/
theorem sameDay_useAll_middle (c : WaterCounter) {u : WaterUse} {before : List WaterUse}
    (hbefore : ∀ v ∈ before, v.date = u.date) (after : List WaterUse) :
    SameDay (c.useAll (u :: (before ++ after))) (c.useAll (before ++ u :: after)) := by
  induction before generalizing c with
  | nil => exact .refl _
  | cons v before ih =>
    have hswap := sameDay_use_use c (hbefore v List.mem_cons_self).symm
    have hrest := ih (c.use v).1 fun w hw => hbefore w (List.mem_cons_of_mem _ hw)
    exact (hswap.useAll (before ++ after)).trans hrest

/-- **The order within a date does not matter**: the same uses in two orders, both with dates that
never go back, leave counters alike. -/
theorem sameDay_useAll {us vs : List WaterUse} (hperm : us.Perm vs)
    (hus : (us.map WaterUse.date).Pairwise (· ≤ ·))
    (hvs : (vs.map WaterUse.date).Pairwise (· ≤ ·)) (c : WaterCounter) :
    SameDay (c.useAll us) (c.useAll vs) := by
  induction us generalizing vs c with
  | nil =>
    rw [List.nil_perm.mp hperm]
    exact .refl _
  | cons u us ih =>
    obtain ⟨before, after, rfl⟩ := List.append_of_mem (hperm.subset List.mem_cons_self)
    have hrest : us.Perm (before ++ after) :=
      (List.perm_cons u).mp (hperm.trans List.perm_middle)
    rw [List.map_cons, List.pairwise_cons] at hus
    rw [List.map_append, List.map_cons] at hvs
    -- Whatever comes before the use is no later in one order, and no earlier in the other.
    have hbefore : ∀ v ∈ before, v.date = u.date := by
      intro v hv
      have hle : v.date ≤ u.date :=
        (List.pairwise_append.mp hvs).2.2 _ (List.mem_map_of_mem hv) _ List.mem_cons_self
      have hge : u.date ≤ v.date :=
        hus.1 _ (List.mem_map_of_mem (hrest.symm.subset (List.mem_append_left _ hv)))
      exact Date.le_antisymm hle hge
    have hsorted : ((before ++ after).map WaterUse.date).Pairwise (· ≤ ·) := by
      rw [List.map_append]
      exact hvs.sublist ((List.sublist_cons_self _ _).append_left _)
    exact (ih hrest hus.2 hsorted (c.use u).1).trans (sameDay_useAll_middle c hbefore after)

end WaterCounter

end IrrigationLog
