/-
# Recording

Three kinds of things are recorded in a log book.

* **Watering runs.**  The water that a run used is counted first, whether or not its line can
  be written; the line goes to the partition of the year in which the run started and of its
  zone.
* **Readings.**  A reading is stamped with the time by the clock of the book.  A code that no
  sensor kind has is refused, whatever the state of the book.
* **System events.**  The line of an event is stamped likewise and goes to the log of the
  month.  When the book is not ready the event is not written, but it is announced all the
  same; when its partition cannot be opened the book is closed and nothing is announced; when
  the disk fails within its line nothing is announced either, but the book stays open.
  Line ends at the end of a message are left out.

An announced event is traced as a whole and delivered to the listener in chunks.
-/
import IrrigationLog.LogBook.Basic
import IrrigationLog.Partition.Line

namespace IrrigationLog

/-! ## 1. Announcements -/

/-- How loudly an event is traced. -/
inductive TraceLevel where
  | error
  | warn
  | info
  deriving DecidableEq

/-- The name of a level. -/
def TraceLevel.word : TraceLevel → String
  | error => "ERROR"
  | warn => "WARN"
  | info => "INFO"

/-- The level at which events of a severity are traced. -/
def Severity.traceLevel : Severity → TraceLevel
  | .crit | .error => .error
  | .warning => .warn
  | .notice | .info | .verbose => .info

/-- What becomes known of an event outside the log: a trace and the delivered chunks. -/
structure Announcement where
  level : TraceLevel
  trace : String
  chunks : List EventChunk
  deriving DecidableEq

/-- The announcement of a message under some limits. -/
def Announcement.of (limits : EventLimits) (time : DateTime) (severity : Severity)
    (message : List Char) : Announcement where
  level := severity.traceLevel
  trace := s!"SYSEVT-{severity.routed.label}: {String.ofList message}"
  chunks := (limits.chunks message).map fun (payload, continuation) =>
    { severity, timestamp := .ofInt time.epochSeconds, continuation,
      payload := String.ofList payload }

namespace LogBook

/-! ## 2. Watering runs -/

/-- Counts the water that a run used. -/
def countWater (b : LogBook) (r : WateringRun) : LogBook :=
  let amount := WaterCounter.contribution r.duration (b.station.flowRate r.zone)
  { b with station := (b.counters.apply b.now amount).1.store b.station }

/-- Records a watering run. -/
def recordWatering (b : LogBook) (r : WateringRun) : LogBook × Except StoreError Unit :=
  (b.countWater r).append (.watering r.start.date.year r.zone.toNat) (WateringLine.ofRun r).text

/-! ## 3. Readings -/

/-- Records a reading of a sensor. -/
def recordReading (b : LogBook) (kind : Sensor) (id : UInt16) (value : Int32) :
    LogBook × Except StoreError Unit :=
  b.append (.sensor kind b.now.date.month b.now.date.year id.toNat)
    (SensorLine.ofReading ⟨b.now, value⟩).text

/-- Records a reading of a sensor given by the code of its kind. -/
def recordSensor (b : LogBook) (code : UInt8) (id : UInt16) (value : Int32) :
    LogBook × Except StoreError Unit :=
  match Sensor.ofCode code with
  | .ok kind => b.recordReading kind id value
  | .error _ => (b, .error (.unsupportedSensor code))

/-! ## 4. System events -/

/-- Records a system event; the last component is what becomes known of it. -/
def recordEvent (b : LogBook) (severity : Severity) (message : String) :
    LogBook × Except StoreError Unit × Option Announcement :=
  let text := trimMessage message.toList
  let announcement := Announcement.of b.limits b.now severity text
  match b.append (.system b.now.date.month b.now.date.year) (systemLine b.now severity text) with
  | (b, .ok ()) => (b, .ok (), some announcement)
  | (b, .error .notReady) => (b, .error .notReady, some announcement)
  | (b, .error (.output cause)) => (b, .error (.output cause), none)
  | (b, .error e) => (b.close, .error e, none)

end LogBook

end IrrigationLog
