/-
# Records

What the station records and what it hands on: completed watering runs, sensor readings and
the chunks in which a system event reaches a listener.
-/
import IrrigationLog.Calendar.DateTime
import IrrigationLog.Vocabulary.Severity

namespace IrrigationLog

/-- One completed watering run. -/
structure WateringRun where
  /-- When the run started. -/
  start : DateTime
  /-- The zone, counted from 1. -/
  zone : UInt8
  /-- Minutes of watering. -/
  duration : UInt16
  /-- The schedule that started the run. -/
  schedule : UInt16
  /-- Seasonal adjustment in percent. -/
  seasonal : Int32
  /-- Adjustment by the weather service in percent. -/
  weather : Int32
  deriving DecidableEq

/-- The run as a partition keeps it: started on the minute. -/
def WateringRun.toMinute (r : WateringRun) : WateringRun := { r with start := r.start.toMinute }

/-- One sensor reading. -/
structure Reading where
  time : DateTime
  value : Int32
  deriving DecidableEq

/-- A part of a system event as it reaches a listener. -/
structure EventChunk where
  /-- The severity with which the event was recorded. -/
  severity : Severity
  /-- When it was recorded, in seconds since 1970-01-01 00:00:00. -/
  timestamp : Int64
  /-- Whether more of the same event follows. -/
  continuation : Bool
  payload : String
  deriving DecidableEq

end IrrigationLog
