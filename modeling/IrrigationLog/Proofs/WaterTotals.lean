/-
# What the water counters mean

The counters keep seven numbers, a sum and one time, and a station lives for years.  This module
says what they hold, in terms of the whole history, when the dates of the clock never go back.

* The counter of a **weekday** is what was used on the latest date with that weekday on which
  anything was used.
* The **lifetime** counter is what was used on all the other dates, each date by itself cut off
  to whole flow-unit-minutes: a date is folded a week late or more, when its weekday comes again.
* The **time of the last fold** is that of the first use on the last date, and every date on
  which anything was used was folded into once.

Nothing depends on what became of the lines of the runs, and the flow rates may change between
them.  `WaterCounter.Tallied` is the whole of it; one use preserves it (`Tallied.use_same`,
`Tallied.use_new`), and so does all that happens to a log book (`LogBook.counters_after`).
-/
import Mathlib.Algebra.BigOperators.Group.Finset.Basic
import Mathlib.Algebra.GroupWithZero.Nat
import IrrigationLog.Proofs.AppendOnly
import IrrigationLog.Proofs.DateOrder
import IrrigationLog.Proofs.EventStream
import IrrigationLog.Proofs.WateringRoundTrip

namespace IrrigationLog

/-! ## 1. What is used -/

/-- The water of one run: when it was counted, for how many minutes it flowed, and how much of
it flows in an hour. -/
structure WaterUse where
  time : DateTime
  duration : UInt16
  flowRate : UInt16

/-- The largest value that a counter can have. -/
def WaterCounter.largest : Nat := UInt32.size - 1

namespace WaterUse

/-- The date on which the water was counted. -/
def date (u : WaterUse) : Date := u.time.date

/-- The amount in hundredths of a flow-unit-minute, cut off. -/
def amount (u : WaterUse) : Nat := u.duration.toNat * u.flowRate.toNat / 60

/-- **No contribution overflows.** -/
theorem toNat_contribution (u : WaterUse) :
    (WaterCounter.contribution u.duration u.flowRate).toNat = u.amount := by
  have hd : u.duration.toNat ≤ 65535 := by
    have := u.duration.toNat_lt
    omega
  have hf : u.flowRate.toNat ≤ 65535 := by
    have := u.flowRate.toNat_lt
    omega
  have hprod : u.duration.toNat * u.flowRate.toNat ≤ 65535 * 65535 := Nat.mul_le_mul hd hf
  have hsmall : u.duration.toNat * u.flowRate.toNat < 2 ^ 32 := by omega
  unfold WaterCounter.contribution amount
  rw [UInt32.toNat_div, UInt32.toNat_mul, UInt16.toNat_toUInt32, UInt16.toNat_toUInt32,
    Nat.mod_eq_of_lt hsmall]
  rfl

/-- A counter can hold what one run uses. -/
theorem amount_le (u : WaterUse) : u.amount ≤ WaterCounter.largest := by
  rw [← toNat_contribution]
  have := (WaterCounter.contribution u.duration u.flowRate).toNat_lt
  unfold WaterCounter.largest UInt32.size
  omega

end WaterUse

/-! ## 2. Totals -/

section Totals

variable (uses : List WaterUse)

/-- The dates on which anything was used. -/
def useDates : Finset Date := (uses.map WaterUse.date).toFinset

/-- What was used on a date, as far as a counter can hold it. -/
def totalOn (d : Date) : Nat :=
  min WaterCounter.largest ((uses.filter fun u => u.date = d).map WaterUse.amount).sum

/-- A date is the latest one of a weekday on which anything was used. -/
def IsLatest (day : Fin 7) (d : Date) : Prop :=
  d ∈ useDates uses ∧ d.weekday = day ∧ ∀ e ∈ useDates uses, e.weekday = day → e ≤ d

/-- The dates whose weekday came again with some use. -/
def overtaken : Finset Date :=
  (useDates uses).filter fun d => ∃ e ∈ useDates uses, e.weekday = d.weekday ∧ d < e

/-- The time of the first use on the last date. -/
def lastStart : Option DateTime :=
  uses.getLast?.bind fun last => (uses.find? fun u => u.date = last.date).map WaterUse.time

end Totals

variable {uses : List WaterUse} {u : WaterUse} {d : Date}

theorem mem_useDates : d ∈ useDates uses ↔ ∃ v ∈ uses, v.date = d := by
  simp [useDates]

theorem useDates_append (uses : List WaterUse) (u : WaterUse) :
    useDates (uses ++ [u]) = insert u.date (useDates uses) := by
  ext d
  simp only [mem_useDates, List.mem_append, List.mem_singleton, Finset.mem_insert]
  constructor
  · rintro ⟨v, hv | rfl, rfl⟩
    · exact Or.inr ⟨v, hv, rfl⟩
    · exact Or.inl rfl
  · rintro (rfl | ⟨v, hv, rfl⟩)
    · exact ⟨u, Or.inr rfl, rfl⟩
    · exact ⟨v, Or.inl hv, rfl⟩

/-- On other dates one more use changes nothing. -/
theorem totalOn_append_other (hne : u.date ≠ d) : totalOn (uses ++ [u]) d = totalOn uses d := by
  simp [totalOn, List.filter_append, hne]

/-- On its own date it adds its amount. -/
theorem totalOn_append_self (uses : List WaterUse) (u : WaterUse) :
    totalOn (uses ++ [u]) u.date =
      min WaterCounter.largest (totalOn uses u.date + u.amount) := by
  simp only [totalOn, List.filter_append, List.map_append, List.sum_append]
  have hself : ([u].filter fun v => v.date = u.date) = [u] := by simp
  rw [hself]
  simp only [List.map_cons, List.map_nil, List.sum_cons, List.sum_nil]
  omega

/-- On a new date it is all there is. -/
theorem totalOn_append_new (hnew : u.date ∉ useDates uses) :
    totalOn (uses ++ [u]) u.date = u.amount := by
  have hnone : uses.filter (fun v => v.date = u.date) = [] := by
    refine List.filter_eq_nil_iff.mpr fun v hv hdate => hnew (mem_useDates.mpr ⟨v, hv, ?_⟩)
    simpa using hdate
  have hle := u.amount_le
  rw [totalOn_append_self, totalOn, hnone, List.map_nil, List.sum_nil]
  omega

/-- The last date of a history in order is no earlier than the others. -/
theorem lastStart_append_of_mem {last : WaterUse} (hlast : uses.getLast? = some last)
    (hdate : last.date = u.date) : lastStart (uses ++ [u]) = lastStart uses := by
  have hmem : last ∈ uses := List.mem_of_getLast? hlast
  unfold lastStart
  rw [List.getLast?_concat, hlast, Option.bind_some, Option.bind_some, hdate,
    List.find?_append]
  cases hfind : uses.find? fun v => v.date = u.date with
  | none =>
    have := List.find?_eq_none.mp hfind last hmem
    simp [hdate] at this
  | some v => rfl

theorem lastStart_append_new (hnew : u.date ∉ useDates uses) :
    lastStart (uses ++ [u]) = some u.time := by
  have hnone : uses.find? (fun v => v.date = u.date) = none := by
    refine List.find?_eq_none.mpr fun v hv hdate => hnew (mem_useDates.mpr ⟨v, hv, ?_⟩)
    simpa using hdate
  unfold lastStart
  rw [List.getLast?_concat, Option.bind_some, List.find?_append, hnone]
  simp

/-- The first use on the last date is on the last date. -/
theorem date_of_lastStart {t : DateTime} (h : lastStart uses = some t) :
    ∃ last, uses.getLast? = some last ∧ last.date = t.date := by
  unfold lastStart at h
  obtain ⟨last, hlast, h⟩ := Option.bind_eq_some_iff.mp h
  obtain ⟨v, hv, rfl⟩ := Option.map_eq_some_iff.mp h
  have hdate := List.find?_some hv
  exact ⟨last, hlast, (by simpa using hdate : v.date = last.date).symm⟩

/-- Where anything was used there is a first use on the last date. -/
theorem lastStart_ne_none (hne : uses ≠ []) : lastStart uses ≠ none := by
  intro hnone
  have hlast := List.getLast?_eq_some_getLast hne
  unfold lastStart at hnone
  rw [hlast, Option.bind_some, Option.map_eq_none_iff] at hnone
  have := List.find?_eq_none.mp hnone _ (List.getLast_mem hne)
  simp at this

/-! ## 3. A use on the last date -/

/-- The last date is overtaken by none. -/
theorem not_mem_overtaken (hlast : ∀ v ∈ uses, v.date ≤ u.date) : u.date ∉ overtaken uses := by
  intro h
  obtain ⟨-, e, he, -, hlt⟩ := Finset.mem_filter.mp h
  obtain ⟨v, hv, rfl⟩ := mem_useDates.mp he
  exact absurd (hlast v hv) (Int.not_le.mpr hlt)

section SameDate

variable (hmem : u.date ∈ useDates uses)

include hmem

theorem useDates_append_of_mem : useDates (uses ++ [u]) = useDates uses := by
  rw [useDates_append, Finset.insert_eq_self.mpr hmem]

theorem overtaken_append_of_mem : overtaken (uses ++ [u]) = overtaken uses := by
  unfold overtaken
  rw [useDates_append_of_mem hmem]

theorem isLatest_append_of_mem {day : Fin 7} :
    IsLatest (uses ++ [u]) day d ↔ IsLatest uses day d := by
  unfold IsLatest
  rw [useDates_append_of_mem hmem]

/-- It is the latest of its weekday. -/
theorem isLatest_last (hlast : ∀ v ∈ uses, v.date ≤ u.date) :
    IsLatest uses u.date.weekday u.date := by
  refine ⟨hmem, rfl, fun e he _ => ?_⟩
  obtain ⟨v, hv, rfl⟩ := mem_useDates.mp he
  exact hlast v hv

/-- In a history in order it is the date of the last use. -/
theorem date_getLast (hsorted : (uses.map WaterUse.date).Pairwise (· ≤ ·))
    (hlast : ∀ v ∈ uses, v.date ≤ u.date) :
    ∃ last, uses.getLast? = some last ∧ last.date = u.date := by
  obtain ⟨v, hv, hdate⟩ := mem_useDates.mp hmem
  rcases List.eq_nil_or_concat uses with rfl | ⟨vs, last, rfl⟩
  · cases hv
  rw [List.concat_eq_append] at hsorted hlast hv ⊢
  refine ⟨last, List.getLast?_concat, Date.le_antisymm (hlast last (by simp)) ?_⟩
  rw [← hdate]
  rcases List.mem_append.mp hv with hv | hv
  · rw [List.map_append] at hsorted
    exact (List.pairwise_append.mp hsorted).2.2 v.date (List.mem_map_of_mem hv) last.date
      (by simp)
  · obtain rfl := List.mem_singleton.mp hv
    exact Date.le_refl _

end SameDate

/-- A weekday has one latest date. -/
theorem IsLatest.unique {day : Fin 7} {e : Date} (h : IsLatest uses day d)
    (h' : IsLatest uses day e) : d = e :=
  Date.le_antisymm (h'.2.2 d h.1 h.2.1) (h.2.2 e h'.1 h'.2.1)

/-! ## 4. A use on a new date -/

/-- On the other weekdays the latest date stays. -/
theorem isLatest_append_other {day : Fin 7} (hday : u.date.weekday ≠ day)
    (h : IsLatest uses day d) : IsLatest (uses ++ [u]) day d := by
  refine ⟨by rw [useDates_append]; exact Finset.mem_insert_of_mem h.1, h.2.1, fun e he hd => ?_⟩
  rw [useDates_append] at he
  rcases Finset.mem_insert.mp he with rfl | he
  · exact absurd hd hday
  · exact h.2.2 e he hd

section NewDate

variable (hnew : u.date ∉ useDates uses) (hlast : ∀ v ∈ uses, v.date ≤ u.date)

include hnew hlast

theorem lt_of_mem_useDates {e : Date} (he : e ∈ useDates uses) : e < u.date := by
  obtain ⟨v, hv, rfl⟩ := mem_useDates.mp he
  refine lt_iff_le_and_ne.mpr ⟨hlast v hv, fun heq => hnew (heq ▸ he)⟩

/-- The new date is the latest of its weekday. -/
theorem isLatest_new : IsLatest (uses ++ [u]) u.date.weekday u.date := by
  refine ⟨by rw [useDates_append]; exact Finset.mem_insert_self _ _, rfl, fun e he _ => ?_⟩
  rw [useDates_append] at he
  rcases Finset.mem_insert.mp he with rfl | he
  · exact Date.le_refl _
  · exact Int.le_of_lt (lt_of_mem_useDates hnew hlast he)

/-- **What a new date overtakes**: besides what was overtaken already, the dates of its own
weekday. -/
theorem mem_overtaken_append {d : Date} :
    d ∈ overtaken (uses ++ [u]) ↔
      d ∈ overtaken uses ∨ d ∈ useDates uses ∧ d.weekday = u.date.weekday := by
  unfold overtaken
  rw [useDates_append]
  simp only [Finset.mem_filter, Finset.mem_insert, exists_eq_or_imp]
  constructor
  · rintro ⟨rfl | hd, ⟨hday, hlt⟩ | ⟨e, he, hday, hlt⟩⟩
    · exact absurd hlt (Int.lt_irrefl _)
    · exact absurd hlt (Int.not_lt.mpr (Int.le_of_lt (lt_of_mem_useDates hnew hlast he)))
    · exact Or.inr ⟨hd, hday.symm⟩
    · exact Or.inl ⟨hd, e, he, hday, hlt⟩
  · rintro (⟨hd, e, he, hday, hlt⟩ | ⟨hd, hday⟩)
    · exact ⟨Or.inr hd, Or.inr ⟨e, he, hday, hlt⟩⟩
    · exact ⟨Or.inr hd, Or.inl ⟨hday.symm, lt_of_mem_useDates hnew hlast hd⟩⟩

/-- The latest date of its weekday is overtaken with the new one. -/
theorem overtaken_append_of_latest (h : IsLatest uses u.date.weekday d) :
    overtaken (uses ++ [u]) = insert d (overtaken uses) ∧ d ∉ overtaken uses := by
  constructor
  · ext e
    rw [mem_overtaken_append hnew hlast, Finset.mem_insert]
    constructor
    · rintro (he | ⟨he, hday⟩)
      · exact Or.inr he
      · by_cases heq : e = d
        · exact Or.inl heq
        · have hlt : e < d := lt_iff_le_and_ne.mpr ⟨h.2.2 e he hday, heq⟩
          exact Or.inr (Finset.mem_filter.mpr ⟨he, d, h.1, h.2.1.trans hday.symm, hlt⟩)
    · rintro (rfl | he)
      · exact Or.inr ⟨h.1, h.2.1⟩
      · exact Or.inl he
  · intro hd
    obtain ⟨-, e, he, hday, hlt⟩ := Finset.mem_filter.mp hd
    exact absurd (h.2.2 e he (hday.trans h.2.1)) (Int.not_le.mpr hlt)

/-- A weekday that comes for the first time overtakes none. -/
theorem overtaken_append_of_first (h : ∀ e ∈ useDates uses, e.weekday ≠ u.date.weekday) :
    overtaken (uses ++ [u]) = overtaken uses := by
  ext e
  rw [mem_overtaken_append hnew hlast]
  constructor
  · rintro (he | ⟨he, hday⟩)
    · exact he
    · exact absurd hday (h e he)
  · exact Or.inl

end NewDate

/-- What was used on an overtaken date was not used now. -/
theorem sum_totalOn_append (hnot : u.date ∉ overtaken uses) :
    ∑ d ∈ overtaken uses, totalOn (uses ++ [u]) d / 100 =
      ∑ d ∈ overtaken uses, totalOn uses d / 100 := by
  refine Finset.sum_congr rfl fun d hd => ?_
  rw [totalOn_append_other fun heq => hnot (heq ▸ hd)]

/-! ## 5. The counters -/

namespace WaterCounter

/-- **What counters hold** after some uses, and the dates on which they were folded. -/
structure Tallied (uses : List WaterUse) (c : WaterCounter) (folds : List Date) : Prop where
  /-- A weekday has the total of its latest date, or nothing. -/
  weekday : ∀ day : Fin 7,
    (∃ d, IsLatest uses day d ∧ c.weekday[day].toNat = totalOn uses d) ∨
      (∀ d ∈ useDates uses, d.weekday ≠ day) ∧ c.weekday[day] = 0
  /-- The lifetime counter has the overtaken dates, each cut off by itself. -/
  lifetime : c.lifetime.toNat = min largest (∑ d ∈ overtaken uses, totalOn uses d / 100)
  /-- The last fold was at the first use on the last date. -/
  updatedAt : c.updatedAt = lastStart uses
  /-- Every date of a use has one fold. -/
  folds : folds.Nodup ∧ folds.toFinset = useDates uses

/-- The counters after a use, and whether a weekday was folded. -/
def use (c : WaterCounter) (u : WaterUse) : WaterCounter × Bool :=
  c.apply u.time (contribution u.duration u.flowRate)

/-- The counters after some uses. -/
def useAll (c : WaterCounter) (uses : List WaterUse) : WaterCounter :=
  uses.foldl (fun c u => (c.use u).1) c

/-- The dates of the uses that folded a weekday. -/
def foldDates (c : WaterCounter) : List WaterUse → List Date
  | [] => []
  | u :: us => (if (c.use u).2 then [u.date] else []) ++ foldDates (c.use u).1 us

theorem foldDates_append (c : WaterCounter) (us vs : List WaterUse) :
    c.foldDates (us ++ vs) = c.foldDates us ++ (c.useAll us).foldDates vs := by
  induction us generalizing c with
  | nil => rfl
  | cons u us ih =>
    rw [List.cons_append, foldDates, ih, foldDates, List.append_assoc]
    rfl

theorem useAll_append (c : WaterCounter) (us vs : List WaterUse) :
    c.useAll (us ++ vs) = (c.useAll us).useAll vs := by
  unfold useAll
  exact List.foldl_append

/-- One weekday of the seven is set. -/
theorem getElem_set_day (v : Vector UInt32 7) (i j : Fin 7) (x : UInt32) :
    (v.set i x)[j] = if i = j then x else v[j] := by
  rw [Fin.getElem_fin, Vector.getElem_set]
  simp only [Fin.ext_iff, Fin.getElem_fin]

variable {c : WaterCounter} {folds : List Date}

/-- Counters on which nothing was used. -/
theorem tallied_nil : Tallied [] {} [] where
  weekday day := by
    refine Or.inr ⟨by simp [useDates], ?_⟩
    simp
  lifetime := by simp [overtaken, useDates]
  updatedAt := rfl
  folds := ⟨List.nodup_nil, rfl⟩

/-- A saturating sum is cut off at the largest value. -/
theorem toNat_saturatingAdd_eq (a b : UInt32) :
    (saturatingAdd a b).toNat = min largest (a.toNat + b.toNat) := by
  rw [toNat_saturatingAdd, Nat.min_comm]
  rfl

/-- On the date of the last fold a use is added to its weekday. -/
theorem use_of_foldedOn (h : c.foldedOn u.date = true) :
    c.use u = (⟨c.weekday.set u.date.weekday
        (saturatingAdd c.weekday[u.date.weekday] (contribution u.duration u.flowRate)),
      c.lifetime, c.updatedAt⟩, false) := by
  unfold use apply
  exact if_pos h

/-- On any other date its weekday is folded and starts anew. -/
theorem use_of_not_foldedOn (h : ¬ c.foldedOn u.date = true) :
    c.use u = (⟨c.weekday.set u.date.weekday (contribution u.duration u.flowRate),
      saturatingAdd c.lifetime (c.weekday[u.date.weekday] / 100), some u.time⟩, true) := by
  unfold use apply
  exact if_neg h

/-- The last fold was on the date of a use exactly if there was a use on that date. -/
theorem Tallied.foldedOn_iff (h : Tallied uses c folds)
    (hsorted : (uses.map WaterUse.date).Pairwise (· ≤ ·))
    (hlast : ∀ v ∈ uses, v.date ≤ u.date) :
    c.foldedOn u.date = true ↔ u.date ∈ useDates uses := by
  unfold foldedOn
  rw [h.updatedAt]
  constructor
  · intro hfold
    obtain ⟨t, ht, hdate⟩ := (Option.any_eq_true _ _).mp hfold
    obtain ⟨last, hgot, hd⟩ := date_of_lastStart ht
    rw [decide_eq_true_iff] at hdate
    exact mem_useDates.mpr ⟨last, List.mem_of_getLast? hgot, hd.trans hdate⟩
  · intro hmem
    obtain ⟨last, hgot, hd⟩ := date_getLast hmem hsorted hlast
    have hne : uses ≠ [] := List.ne_nil_of_mem (List.mem_of_getLast? hgot)
    obtain ⟨t, ht⟩ := Option.ne_none_iff_exists'.mp (lastStart_ne_none hne)
    obtain ⟨last', hgot', hd'⟩ := date_of_lastStart ht
    rw [hgot, Option.some.injEq] at hgot'
    subst hgot'
    rw [ht, Option.any_some, decide_eq_true_iff, ← hd', hd]

/-- **A use on the last date** goes to the total of that date. -/
theorem Tallied.use_same (h : Tallied uses c folds)
    (hsorted : (uses.map WaterUse.date).Pairwise (· ≤ ·))
    (hlast : ∀ v ∈ uses, v.date ≤ u.date) (hmem : u.date ∈ useDates uses) :
    Tallied (uses ++ [u]) (c.use u).1 folds := by
  rw [use_of_foldedOn ((h.foldedOn_iff hsorted hlast).mpr hmem)]
  refine ⟨fun day => ?_, ?_, ?_, ?_⟩
  · rw [getElem_set_day]
    by_cases hday : u.date.weekday = day
    · subst hday
      rw [if_pos rfl]
      have hlatest := isLatest_last hmem hlast
      refine Or.inl ⟨u.date, (isLatest_append_of_mem hmem).mpr hlatest, ?_⟩
      rcases h.weekday u.date.weekday with ⟨d, hd, htotal⟩ | ⟨hnone, -⟩
      · rw [toNat_saturatingAdd_eq, htotal, u.toNat_contribution, hd.unique hlatest,
          totalOn_append_self]
      · exact absurd rfl (hnone u.date hmem)
    · rw [if_neg hday]
      rcases h.weekday day with ⟨d, hd, htotal⟩ | ⟨hnone, hzero⟩
      · refine Or.inl ⟨d, (isLatest_append_of_mem hmem).mpr hd, ?_⟩
        rw [htotal, totalOn_append_other]
        rintro rfl
        exact hday hd.2.1
      · rw [useDates_append_of_mem hmem]
        exact Or.inr ⟨hnone, hzero⟩
  · rw [overtaken_append_of_mem hmem, sum_totalOn_append (not_mem_overtaken hlast)]
    exact h.lifetime
  · obtain ⟨last, hgot, hd⟩ := date_getLast hmem hsorted hlast
    rw [lastStart_append_of_mem hgot hd]
    exact h.updatedAt
  · rw [useDates_append_of_mem hmem]
    exact h.folds

/-- The lifetime counter takes what the weekday of a new date held. -/
theorem Tallied.lifetime_new (h : Tallied uses c folds) (hlast : ∀ v ∈ uses, v.date ≤ u.date)
    (hnew : u.date ∉ useDates uses) :
    (saturatingAdd c.lifetime (c.weekday[u.date.weekday] / 100)).toNat =
      min largest (∑ d ∈ overtaken (uses ++ [u]), totalOn (uses ++ [u]) d / 100) := by
  rw [toNat_saturatingAdd_eq, h.lifetime, UInt32.toNat_div]
  rcases h.weekday u.date.weekday with ⟨d, hd, htotal⟩ | ⟨hnone, hzero⟩
  · obtain ⟨hinsert, hfree⟩ := overtaken_append_of_latest hnew hlast hd
    have hother : u.date ≠ d := by
      rintro rfl
      exact hnew hd.1
    rw [hinsert, Finset.sum_insert hfree, sum_totalOn_append (not_mem_overtaken hlast),
      totalOn_append_other hother, htotal]
    have h100 : (100 : UInt32).toNat = 100 := rfl
    rw [h100]
    omega
  · rw [overtaken_append_of_first hnew hlast hnone,
      sum_totalOn_append (not_mem_overtaken hlast), hzero]
    simp

/-- **A use on a new date** folds the weekday of that date. -/
theorem Tallied.use_new (h : Tallied uses c folds)
    (hsorted : (uses.map WaterUse.date).Pairwise (· ≤ ·))
    (hlast : ∀ v ∈ uses, v.date ≤ u.date) (hnew : u.date ∉ useDates uses) :
    Tallied (uses ++ [u]) (c.use u).1 (folds ++ [u.date]) := by
  rw [use_of_not_foldedOn (mt (h.foldedOn_iff hsorted hlast).mp hnew)]
  refine ⟨fun day => ?_, h.lifetime_new hlast hnew, (lastStart_append_new hnew).symm, ?_⟩
  · rw [getElem_set_day]
    by_cases hday : u.date.weekday = day
    · subst hday
      rw [if_pos rfl]
      refine Or.inl ⟨u.date, isLatest_new hnew hlast, ?_⟩
      rw [u.toNat_contribution, totalOn_append_new hnew]
    · rw [if_neg hday]
      rcases h.weekday day with ⟨d, hd, htotal⟩ | ⟨hnone, hzero⟩
      · refine Or.inl ⟨d, isLatest_append_other hday hd, ?_⟩
        rw [htotal, totalOn_append_other]
        rintro rfl
        exact hday hd.2.1
      · refine Or.inr ⟨fun d hd => ?_, hzero⟩
        rw [useDates_append] at hd
        rcases Finset.mem_insert.mp hd with rfl | hd
        · exact hday
        · exact hnone d hd
  · obtain ⟨hnodup, hdates⟩ := h.folds
    have hfree : u.date ∉ folds := by
      rw [← List.mem_toFinset, hdates]
      exact hnew
    refine ⟨?_, ?_⟩
    · refine List.nodup_append.mpr ⟨hnodup, by simp, fun d hd e he => ?_⟩
      rw [List.mem_singleton.mp he]
      rintro rfl
      exact hfree hd
    · rw [useDates_append, ← hdates]
      ext d
      simp [or_comm]

/-- **What counters hold after a history in order** that started with nothing used. -/
theorem tallied_useAll (hsorted : (uses.map WaterUse.date).Pairwise (· ≤ ·)) :
    Tallied uses (useAll {} uses) (foldDates {} uses) := by
  induction uses using List.reverseRecOn with
  | nil => exact tallied_nil
  | append_singleton us u ih =>
    rw [List.map_append] at hsorted
    obtain ⟨hus, -, hle⟩ := List.pairwise_append.mp hsorted
    have hlast : ∀ v ∈ us, v.date ≤ u.date := fun v hv =>
      hle v.date (List.mem_map_of_mem hv) u.date (by simp)
    have h := ih hus
    have hdates : foldDates (useAll {} us) [u]
        = if (use (useAll {} us) u).2 then [u.date] else [] := by
      simp [foldDates]
    rw [useAll_append, foldDates_append, hdates]
    change Tallied (us ++ [u]) (use (useAll {} us) u).1 _
    by_cases hmem : u.date ∈ useDates us
    · have hsame : (use (useAll {} us) u).2 = false := by
        rw [use_of_foldedOn ((h.foldedOn_iff hus hlast).mpr hmem)]
      rw [hsame, if_neg Bool.false_ne_true, List.append_nil]
      exact h.use_same hus hlast hmem
    · have hnew : (use (useAll {} us) u).2 = true := by
        rw [use_of_not_foldedOn (mt (h.foldedOn_iff hus hlast).mp hmem)]
      rw [hnew, if_pos rfl]
      exact h.use_new hus hlast hmem

end WaterCounter

/-! ## 6. Runs of a log book -/

/-- The water that a call counted. -/
def Call.waterUse? : Call → Option WaterUse
  | ⟨b, .watering r, _⟩ => some ⟨b.now, r.duration, b.station.flowRate r.zone⟩
  | _ => none

/-- The date of a call that folded a weekday. -/
def Call.foldDate? (c : Call) : Option Date :=
  c.waterUse?.bind fun u => if (c.book.counters.use u).2 then some u.date else none

/-- Whether a call that replaces the settings leaves the counters in them. -/
def Call.keepsCounters : Call → Bool
  | ⟨b, .replaceStation s, _⟩ => decide (WaterCounter.ofStation s = b.counters)
  | _ => true

namespace LogBook

variable {b : LogBook}

/-- The book after all that happens to it. -/
def after (b : LogBook) : List Happening → LogBook
  | [] => b
  | .operation op :: hs => (b.step op).1.after hs
  | .disturbance tree fault :: hs => { b with tree, fault }.after hs

/-- The water that is counted amid what happens, call by call. -/
def waterUses (b : LogBook) (hs : List Happening) : List WaterUse :=
  (b.callsAmid hs).filterMap Call.waterUse?

/-- The dates of the calls that folded a weekday. -/
def foldDates (b : LogBook) (hs : List Happening) : List Date :=
  (b.callsAmid hs).filterMap Call.foldDate?

/-- A counter that was applied to has a time of its last fold. -/
theorem ofStation_store_apply (c : WaterCounter) (now : DateTime) (amount : UInt32)
    (s : Station) (hs : c = .ofStation s) :
    WaterCounter.ofStation ((c.apply now amount).1.store s) = (c.apply now amount).1 := by
  subst hs
  unfold WaterCounter.apply
  dsimp only
  split
  · cases s with
    | mk z f w l d => cases d <;> rfl
  · rfl

/-- **A watering run uses its water**, whatever becomes of its line. -/
theorem counters_watering (b : LogBook) (r : WateringRun) :
    (b.step (.watering r)).1.counters =
      (b.counters.use ⟨b.now, r.duration, b.station.flowRate r.zone⟩).1 := by
  unfold counters
  rw [station_watering]
  exact ofStation_store_apply _ _ _ _ rfl

/-- No other operation touches the counters, as long as replaced settings keep them. -/
theorem counters_of_no_use {op : Operation} (hop : ∀ r, op ≠ .watering r)
    (hkeep : (Call.mk b op (b.step op).2).keepsCounters = true) :
    (b.step op).1.counters = b.counters := by
  cases op with
  | watering r => exact absurd rfl (hop r)
  | replaceStation s => exact of_decide_eq_true hkeep
  | setUp =>
    change WaterCounter.ofStation b.setUp.1.station = _
    rw [setUp_eq]
    rfl
  | sensor code id value =>
    exact congrArg WaterCounter.ofStation (station_of_records rfl fun _ => by simp)
  | reading kind id value =>
    exact congrArg WaterCounter.ofStation (station_of_records rfl fun _ => by simp)
  | event severity message =>
    exact congrArg WaterCounter.ofStation (station_of_records rfl fun _ => by simp)
  | close | setClock | advanceClock | setLimits | query => rfl

/-- **The counters use the water call by call**, whatever is done to the tree and the disk
between the calls. -/
theorem counters_after_eq {hs : List Happening}
    (hkeep : ∀ c ∈ b.callsAmid hs, c.keepsCounters) :
    (b.after hs).counters = b.counters.useAll (b.waterUses hs) ∧
      b.foldDates hs = b.counters.foldDates (b.waterUses hs) := by
  induction hs generalizing b with
  | nil => exact ⟨rfl, rfl⟩
  | cons h hs ih =>
    cases h with
    | disturbance tree fault => exact @ih { b with tree, fault } hkeep
    | operation op =>
      obtain ⟨hcounters, hfolds⟩ := @ih (b.step op).1 fun c hc =>
        hkeep c (List.mem_cons_of_mem _ hc)
      have hhead := hkeep ⟨b, op, (b.step op).2⟩ List.mem_cons_self
      unfold waterUses at hcounters hfolds ⊢
      unfold foldDates at hfolds ⊢
      rw [after, callsAmid, hcounters]
      by_cases hop : ∃ r, op = .watering r
      · obtain ⟨r, rfl⟩ := hop
        have huse : Call.waterUse? ⟨b, .watering r, (b.step (.watering r)).2⟩
            = some ⟨b.now, r.duration, b.station.flowRate r.zone⟩ := rfl
        rw [List.filterMap_cons_some huse, List.filterMap_cons, hfolds, counters_watering]
        refine ⟨rfl, ?_⟩
        unfold Call.foldDate?
        rw [huse, Option.bind_some, WaterCounter.foldDates]
        cases hfold : (b.counters.use ⟨b.now, r.duration, b.station.flowRate r.zone⟩).2 <;> rfl
      · have hother : ∀ r, op ≠ .watering r := fun r h => hop ⟨r, h⟩
        have hnone : Call.waterUse? ⟨b, op, (b.step op).2⟩ = none := by
          cases op with
          | watering r => exact absurd rfl (hother r)
          | _ => rfl
        have hfold : Call.foldDate? ⟨b, op, (b.step op).2⟩ = none := by
          unfold Call.foldDate?
          rw [hnone]
          rfl
        rw [List.filterMap_cons_none hnone, List.filterMap_cons_none hfold, hfolds,
          counters_of_no_use hother hhead]
        exact ⟨rfl, rfl⟩

/-- **What the counters of a station mean.**  Starting from nothing, with a clock whose date
never goes back, the counters after any number of calls are what was used: per weekday on its
latest date, in the lifetime counter on the dates overtaken by a later one of their weekday, and
every date was folded into once.  It does not matter which lines could be written. -/
theorem counters_after {hs : List Happening} (hzero : b.counters = {})
    (hkeep : ∀ c ∈ b.callsAmid hs, c.keepsCounters)
    (hsorted : ((b.waterUses hs).map WaterUse.date).Pairwise (· ≤ ·)) :
    WaterCounter.Tallied (b.waterUses hs) (b.after hs).counters (b.foldDates hs) := by
  obtain ⟨hcounters, hfolds⟩ := counters_after_eq hkeep
  rw [hcounters, hfolds, hzero]
  exact WaterCounter.tallied_useAll hsorted

/-- Two runs of half an hour on one day and one a week later, at a tenth of the flow rate; the
first is not written because the book is not ready, the second because the disk is full, and the
third because the tree is gone. -/
def aWeekApart : List Happening :=
  [.operation (.replaceStation (.uniform 1 600)),
    .operation (.watering firstRun),
    .operation .setUp,
    .disturbance (.dir []) (some ⟨0, "No space left on device (os error 28)"⟩),
    .operation (.watering firstRun),
    .operation (.replaceStation
      { flowRates := [60]
        weekdayCounters := #v[0, 0, 0, 0, 600, 0, 0]
        counterDate := some .epoch }),
    .operation (.advanceClock 604800),
    .disturbance (.file []) none,
    .operation (.watering firstRun)]

/-- The first day is folded into the lifetime counter, and the second is what its weekday has. -/
theorem counters_after_of_aWeekApart :
    blank.counters = {} ∧
    (∀ c ∈ blank.callsAmid aWeekApart, c.keepsCounters) ∧
    ((blank.waterUses aWeekApart).map WaterUse.date).Pairwise (· ≤ ·) ∧
    WaterCounter.Tallied (blank.waterUses aWeekApart) (blank.after aWeekApart).counters
      (blank.foldDates aWeekApart) ∧
    (blank.after aWeekApart).counters =
      ⟨#v[0, 0, 0, 0, 30, 0, 0], 6, some (Clock.now ⟨604800⟩)⟩ := by
  have hkeep : ∀ c ∈ blank.callsAmid aWeekApart, c.keepsCounters := by decide +kernel
  have hsorted : ((blank.waterUses aWeekApart).map WaterUse.date).Pairwise (· ≤ ·) := by
    decide +kernel
  refine ⟨rfl, hkeep, hsorted, counters_after rfl hkeep hsorted, ?_⟩
  decide +kernel

end LogBook

end IrrigationLog
