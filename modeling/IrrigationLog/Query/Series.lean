/-
# Summarised series of readings

A series is made partition by partition.  Without a summary every reading is a point of its
own.  With one, consecutive readings of the same hour, day or month share a bucket, and a
bucket becomes a point, its mean cut off toward zero at the start of the interval, when a
reading of another interval arrives.  The bucket that is open at the end of a partition is
left out.

* `Bucketing.push` takes one reading and may yield a point;
* `Summary.points` is the series of a list of readings;
* `LogTree.seriesPoints` is the series of a query, month by month;
* `LogTree.forEachPoint` feeds the same points to a receiver, one after the other.
-/
import IrrigationLog.Query.Scan
import IrrigationLog.Vocabulary.Grouping

namespace IrrigationLog

/-! ## 1. Points -/

/-- A point of a series. -/
structure SeriesPoint where
  time : DateTime
  value : Int32
  deriving DecidableEq

/-- The time of a point in milliseconds since 1970-01-01 00:00:00. -/
def SeriesPoint.epochMillis (p : SeriesPoint) : Int := p.time.epochSeconds * 1000

/-- The start of the interval around a time; without a summary there is none. -/
def Summary.intervalStart (time : DateTime) : Summary → Option DateTime
  | .raw => none
  | .hour => some time.hourStart
  | .day => some time.dayStart
  | .month => some time.monthStart

/-! ## 2. One partition -/

/-- The readings gathered in an interval. -/
structure Bucket where
  start : DateTime
  sum : Int
  count : Nat
  deriving DecidableEq

/-- The mean of a bucket at the start of its interval. -/
def Bucket.point (b : Bucket) : SeriesPoint := ⟨b.start, .ofInt (b.sum.tdiv b.count)⟩

/-- A summary at work, with the bucket that is open. -/
structure Bucketing where
  summary : Summary
  current : Option Bucket := none
  deriving DecidableEq

namespace Bucketing

/-- Takes a reading; yields a point when that closes a bucket, or at once without a summary. -/
def push (b : Bucketing) (r : Reading) : Bucketing × Option SeriesPoint :=
  match b.summary.intervalStart r.time, b.current with
  | none, _ => (b, some ⟨r.time, r.value⟩)
  | some start, none => ({ b with current := some ⟨start, r.value.toInt, 1⟩ }, none)
  | some start, some bucket =>
    if bucket.start = start then
      ({ b with current := some ⟨start, bucket.sum + r.value.toInt, bucket.count + 1⟩ }, none)
    else ({ b with current := some ⟨start, r.value.toInt, 1⟩ }, some bucket.point)

/-- What each of a list of readings yields. -/
def pushAll (b : Bucketing) : List Reading → List (Option SeriesPoint)
  | [] => []
  | r :: rs => (b.push r).2 :: (b.push r).1.pushAll rs

end Bucketing

/-- The points of one partition. -/
def Summary.points (summary : Summary) (readings : List Reading) : List SeriesPoint :=
  (Bucketing.pushAll ⟨summary, none⟩ readings).reduceOption

/-! ## 3. All partitions of a query -/

/-- The points of a sensor over the months of a range. -/
def LogTree.seriesPoints (e : LogTree) (kind : Sensor) (id : UInt16)
    (range : DayRange) (summary : Summary) : List SeriesPoint :=
  range.months.flatMap fun month =>
    summary.points ((e.scanSensor kind id (.ofNat month) range).getD [])

/-! ## 4. Feeding a receiver -/

/-- Feeds points to a receiver until it fails. -/
def feed (receive : σ → SeriesPoint → Except ε σ) (s : σ) : List SeriesPoint → Except ε σ
  | [] => .ok s
  | p :: ps =>
    match receive s p with
    | .ok s => feed receive s ps
    | .error e => .error e

/-- Feeds the points of one partition to a receiver as the readings come; the number counts the
points it took. -/
def Bucketing.feed (receive : σ → SeriesPoint → Except ε σ) (b : Bucketing) (s : σ) (n : Nat) :
    List Reading → Except ε (σ × Nat)
  | [] => .ok (s, n)
  | r :: rs =>
    match b.push r with
    | (b, none) => b.feed receive s n rs
    | (b, some p) =>
      match receive s p with
      | .ok s => b.feed receive s (n + 1) rs
      | .error e => .error e

namespace LogTree

/-- Feeds the points of some months to a receiver; absent partitions are passed over. -/
def feedMonths (e : LogTree) (kind : Sensor) (id : UInt16) (range : DayRange) (summary : Summary)
    (receive : σ → SeriesPoint → Except ε σ) (s : σ) (n : Nat) : List Nat → Except ε (σ × Nat)
  | [] => .ok (s, n)
  | month :: months =>
    match e.scanSensor kind id (.ofNat month) range with
    | none => e.feedMonths kind id range summary receive s n months
    | some readings =>
      match Bucketing.feed receive ⟨summary, none⟩ s n readings with
      | .ok (s, n) => e.feedMonths kind id range summary receive s n months
      | .error e => .error e

/-- Feeds the points of a sensor over a range to a receiver, and says how many it took. -/
def forEachPoint (e : LogTree) (kind : Sensor) (id : UInt16) (range : DayRange) (summary : Summary)
    (receive : σ → SeriesPoint → Except ε σ) (s : σ) : Except ε (σ × Nat) :=
  e.feedMonths kind id range summary receive s 0 range.months

end LogTree

end IrrigationLog
