/-
# Running water counters

Water use is added up per weekday in hundredths of a flow-unit-minute.  The first run on a new
calendar day folds what its weekday held into the lifetime counter, in whole flow-unit-minutes,
and starts that weekday afresh; later runs of the day are added on.  A counter that would pass
2^32 - 1 stays there.
-/
import IrrigationLog.Station

namespace IrrigationLog

/-- A sum that stays at the largest word instead of passing it. -/
def saturatingAdd (a b : UInt32) : UInt32 :=
  UInt32.ofNat (min (a.toNat + b.toNat) (UInt32.size - 1))

/-- What a saturating sum is worth. -/
theorem toNat_saturatingAdd (a b : UInt32) :
    (saturatingAdd a b).toNat = min (a.toNat + b.toNat) (UInt32.size - 1) := by
  unfold saturatingAdd
  rw [UInt32.toNat_ofNat']
  exact Nat.mod_eq_of_lt (by unfold UInt32.size; omega)

/-- The running water counters. -/
structure WaterCounter where
  /-- Per weekday, Sunday first. -/
  weekday : Vector UInt32 7 := Vector.replicate 7 0
  lifetime : UInt32 := 0
  /-- When a weekday was last folded. -/
  updatedAt : Option DateTime := none
  deriving DecidableEq, Inhabited

namespace WaterCounter

/-- What a run uses: its minutes times the flow rate, divided by sixty and cut off. -/
def contribution (duration flowRate : UInt16) : UInt32 :=
  duration.toUInt32 * flowRate.toUInt32 / 60

/-- The counters that a station carries. -/
def ofStation (s : Station) : WaterCounter := ⟨s.weekdayCounters, s.lifetime, s.counterDate⟩

/-- The station with these counters; a missing time of the last fold leaves the old one. -/
def store (c : WaterCounter) (s : Station) : Station :=
  { s with
    weekdayCounters := c.weekday
    lifetime := c.lifetime
    counterDate := c.updatedAt.or s.counterDate }

/-- Whether the counters were last folded on the given date. -/
def foldedOn (c : WaterCounter) (d : Date) : Bool :=
  c.updatedAt.any fun last => last.date = d

/-- The counters after a contribution, and whether a weekday was folded. -/
def apply (c : WaterCounter) (now : DateTime) (amount : UInt32) : WaterCounter × Bool :=
  let day := now.date.weekday
  if c.foldedOn now.date then
    ({ c with weekday := c.weekday.set day (saturatingAdd c.weekday[day] amount) }, false)
  else
    (⟨c.weekday.set day amount, saturatingAdd c.lifetime (c.weekday[day] / 100), some now⟩, true)

/-- The sum of all weekdays. -/
def weekTotal (c : WaterCounter) : Nat :=
  c.weekday.toList.foldr (fun amount total => amount.toNat + total) 0

/-- Counters taken from a station and stored back leave it as it was. -/
@[simp]
theorem store_ofStation (s : Station) : (ofStation s).store s = s := by
  cases s with
  | mk z f w l d => cases d <;> rfl

end WaterCounter

end IrrigationLog
