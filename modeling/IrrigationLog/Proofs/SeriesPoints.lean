/-
# The points of a series, one by one and month by month

A series is made in two ways: as one list, and by feeding a receiver that may refuse to go on.
The receiver gets the points of the list, in order and each once, and is told their number
(`LogTree.forEachPoint_eq`).

A range is gone through month by month, so its readings come sorted into months.  A list in the
order of its months is not changed by that (`flatMap_filter_eq_self`), and the months of a range
are all that its days fall into (`DayRange.month_bounds_of_covers`).
-/
import IrrigationLog.Proofs.SortedScan
import IrrigationLog.Query.Series

namespace IrrigationLog

variable {σ ε : Type} {receive : σ → SeriesPoint → Except ε σ}

/-! ## 1. Feeding -/

/-- Feeding two lists is feeding one after the other. -/
theorem feed_append (s : σ) (ps qs : List SeriesPoint) :
    feed receive s (ps ++ qs) = (feed receive s ps).bind fun s => feed receive s qs := by
  induction ps generalizing s with
  | nil => rfl
  | cons p ps ih =>
    simp only [List.cons_append, feed]
    cases receive s p with
    | error e => rfl
    | ok s => exact ih s

/-- What a receiver makes of a list of points, with a number counted on by their number. -/
def feedFrom (receive : σ → SeriesPoint → Except ε σ) (s : σ) (n : Nat) (ps : List SeriesPoint) :
    Except ε (σ × Nat) :=
  (feed receive s ps).map fun s => (s, n + ps.length)

theorem feedFrom_cons (s : σ) (n : Nat) (p : SeriesPoint) (ps : List SeriesPoint) :
    feedFrom receive s n (p :: ps) =
      (receive s p).bind fun s => feedFrom receive s (n + 1) ps := by
  unfold feedFrom
  rw [feed, List.length_cons]
  cases receive s p with
  | error e => rfl
  | ok s =>
    have hcount : n + (ps.length + 1) = n + 1 + ps.length := by omega
    rw [hcount]
    rfl

theorem feedFrom_append (s : σ) (n : Nat) (ps qs : List SeriesPoint) :
    feedFrom receive s n (ps ++ qs) =
      (feedFrom receive s n ps).bind fun r => feedFrom receive r.1 r.2 qs := by
  unfold feedFrom
  rw [feed_append, List.length_append, ← Nat.add_assoc]
  cases feed receive s ps <;> rfl

/-- The points of a partition reach the receiver as its readings come. -/
theorem Bucketing.feed_eq (b : Bucketing) (s : σ) (n : Nat) (rs : List Reading) :
    b.feed receive s n rs = feedFrom receive s n (b.pushAll rs).reduceOption := by
  induction rs generalizing b s n with
  | nil => rfl
  | cons r rs ih =>
    rw [Bucketing.feed, pushAll]
    rcases hpush : b.push r with ⟨b', _ | p⟩
    · exact ih b' s n
    · change _ = feedFrom receive s n (p :: (b'.pushAll rs).reduceOption)
      rw [feedFrom_cons]
      dsimp only
      cases receive s p with
      | error e => rfl
      | ok s => exact ih b' s (n + 1)

namespace LogTree

/-- The points of some months reach the receiver month by month. -/
theorem feedMonths_eq (t : LogTree) (kind : Sensor) (id : UInt16) (range : DayRange)
    (summary : Summary) (s : σ) (n : Nat) (months : List Nat) :
    t.feedMonths kind id range summary receive s n months =
      feedFrom receive s n (months.flatMap fun month =>
        summary.points ((t.scanSensor kind id (.ofNat month) range).getD [])) := by
  induction months generalizing s n with
  | nil => rfl
  | cons month months ih =>
    rw [feedMonths, List.flatMap_cons, feedFrom_append]
    cases hscan : t.scanSensor kind id (.ofNat month) range with
    | none => exact ih s n
    | some readings =>
      have hfed : Bucketing.feed receive ⟨summary, none⟩ s n readings
          = feedFrom receive s n (summary.points readings) := Bucketing.feed_eq _ s n readings
      dsimp only
      rw [hfed, Option.getD_some]
      cases feedFrom receive s n (summary.points readings) with
      | error e => rfl
      | ok r => exact ih r.1 r.2

/-- **A receiver gets the points of the series**, in order and each once, and then their
number. -/
theorem forEachPoint_eq (t : LogTree) (kind : Sensor) (id : UInt16) (range : DayRange)
    (summary : Summary) (s : σ) :
    t.forEachPoint kind id range summary receive s =
      (feed receive s (t.seriesPoints kind id range summary)).map fun s =>
        (s, (t.seriesPoints kind id range summary).length) := by
  unfold forEachPoint
  rw [feedMonths_eq, feedFrom]
  simp only [Nat.zero_add]
  rfl

end LogTree

/-! ## 2. Without a summary -/

/-- A reading as a point of its own. -/
def Reading.point (r : Reading) : SeriesPoint := ⟨r.time, r.value⟩

/-- Without a summary every reading is a point. -/
theorem Summary.points_raw (rs : List Reading) : Summary.raw.points rs = rs.map Reading.point := by
  unfold points
  induction rs with
  | nil => rfl
  | cons r rs ih =>
    change r.point :: (Bucketing.pushAll ⟨raw, none⟩ rs).reduceOption = _
    rw [ih, List.map_cons]

/-! ## 3. Months -/

/-- **A list in the order of its keys is what it is sorted into.** -/
theorem flatMap_filter_eq_self {α : Type} {key : α → Nat} {as : List α} {lo n : Nat}
    (hsorted : as.Pairwise fun a b => key a ≤ key b)
    (hkeys : ∀ a ∈ as, lo ≤ key a ∧ key a < lo + n) :
    (((List.range n).map (lo + ·)).flatMap fun k => as.filter fun a => key a = k) = as := by
  induction n generalizing lo as with
  | zero =>
    cases as with
    | nil => rfl
    | cons a as =>
      have := hkeys a List.mem_cons_self
      omega
  | succ n ih =>
    have hmonths : (List.range (n + 1)).map (lo + ·)
        = lo :: (List.range n).map (lo + 1 + ·) := by
      rw [List.range_succ_eq_map, List.map_cons, List.map_map, Nat.add_zero]
      congr 1
      refine List.map_congr_left fun k _ => ?_
      simp only [Function.comp_apply]
      omega
    have hrest := @ih (as.filter fun a => !decide (key a = lo)) (lo + 1)
      (hsorted.filter _) (fun a ha => by
        obtain ⟨hmem, hne⟩ := List.mem_filter.mp ha
        have := hkeys a hmem
        simp only [Bool.not_eq_true', decide_eq_false_iff_not] at hne
        omega)
    have hlater : (((List.range n).map (lo + 1 + ·)).flatMap fun k =>
          as.filter fun a => key a = k)
        = ((List.range n).map (lo + 1 + ·)).flatMap fun k =>
          (as.filter fun a => !decide (key a = lo)).filter fun a => key a = k := by
      refine congrArg List.flatten (List.map_congr_left fun k hk => ?_)
      obtain ⟨m, -, rfl⟩ := List.mem_map.mp hk
      rw [List.filter_filter]
      refine List.filter_congr fun a _ => ?_
      rw [Bool.eq_iff_iff]
      simp only [Bool.and_eq_true, decide_eq_true_eq, Bool.not_eq_true', decide_eq_false_iff_not]
      omega
    rw [hmonths, List.flatMap_cons, hlater, hrest]
    refine filter_append_filter_not (hsorted.imp_of_mem fun {a b} ha hb hle hlast => ?_)
    have := hkeys a ha
    rw [decide_eq_true_iff] at hlast ⊢
    omega

end IrrigationLog
