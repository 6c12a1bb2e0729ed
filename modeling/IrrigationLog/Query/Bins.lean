/-
# Bins of watering runs

A chart shows the mean duration of the runs in each bin of a grouping: by hour of the day, by
weekday from Sunday, or by month from January.  Means are whole minutes, cut off toward zero;
bins without a run are not shown.
-/
import IrrigationLog.Error
import IrrigationLog.Record
import IrrigationLog.Vocabulary.Grouping

namespace IrrigationLog

/-! ## 1. Means -/

/-- The sum and the number of the values in a bin. -/
structure Mean where
  sum : Int := 0
  count : Nat := 0
  deriving DecidableEq, Inhabited

namespace Mean

/-- The mean with one more value. -/
def add (m : Mean) (value : Int) : Mean := ⟨m.sum + value, m.count + 1⟩

/-- Whether there is no value yet. -/
def isEmpty (m : Mean) : Bool := m.count == 0

/-- The sum divided by the number, cut off toward zero; 0 without any value. -/
def value (m : Mean) : Int := m.sum.tdiv m.count

end Mean

/-! ## 2. Bins -/

/-- The bin of a run started at a time; the last case has no bins at all. -/
def Grouping.binOf (start : DateTime) : Grouping → Option Nat
  | .hourly => some start.time.hour
  | .daily => some start.date.weekday
  | .monthly => some (start.date.month - 1)
  | .numeric => none

/-- The runs of a zone gathered into bins. -/
structure ZoneBins where
  zone : UInt8
  grouping : Grouping
  slots : List Mean
  /-- The number of runs gathered. -/
  matched : Nat
  deriving DecidableEq

namespace ZoneBins

/-- Empty bins, if the grouping has any. -/
def empty (zone : UInt8) (grouping : Grouping) : Except StoreError ZoneBins :=
  match grouping.bins with
  | some n => .ok ⟨zone, grouping, List.replicate n {}, 0⟩
  | none => .error (.unsupportedGrouping grouping)

/-- The bins with one more run. -/
def add (b : ZoneBins) (r : WateringRun) : ZoneBins :=
  match b.grouping.binOf r.start with
  | some i =>
    if i < b.slots.length then
      { b with
        slots := b.slots.modify i fun m => m.add r.duration.toNat
        matched := b.matched + 1 }
    else b
  | none => b

/-- The bins that hold a run, each with its number and mean. -/
def bins (b : ZoneBins) : List (Nat × Int) :=
  (b.slots.zipIdx.filter fun s => !s.1.isEmpty).map fun s => (s.2, s.1.value)

end ZoneBins

end IrrigationLog
