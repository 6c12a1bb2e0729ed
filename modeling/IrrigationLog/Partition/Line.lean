/-
# Lines of a partition

A line is a row of fields with commas between them; a clock time is a field of its own, hour
and minute with a colon between them.  Numbers are written without padding.

    watering   month,day,hour:minute,duration,schedule,seasonal,weather CR LF
    sensor     day,hour:minute,reading LF
    system     day,hour:minute:second,code,message LF

What a line leaves out stands in the name of its file.  A row is read back by its leading
fields; further ones are let go, and a field that is missing or no number of its type spoils
the whole row.

* `WateringLine.row`, `WateringLine.ofRow?`, `WateringLine.run?`;
* `SensorLine.row`, `SensorLine.ofRow?`, `SensorLine.reading?`;
* `systemLine`, of a message without the line ends at its end (`TrimsTo`).
-/
import IrrigationLog.Record
import IrrigationLog.Text.Blank
import IrrigationLog.Text.Numeral
import IrrigationLog.Text.Split

namespace IrrigationLog

open Text

/-! ## 1. Fields -/

/-- Fields with commas between them. -/
def commaSeparated : List (List Char) → List Char
  | [] => []
  | [field] => field
  | field :: fields => field ++ ',' :: commaSeparated fields

/-- A clock time as a field. -/
def clockField (hour minute : UInt8) : List Char :=
  decimal hour.toNat ++ ':' :: decimal minute.toNat

/-- The hour and minute of a field; blanks around each are let go. -/
def readClock? (field : List Char) : Option (UInt8 × UInt8) := do
  let (hour, minute) ← cutOnce ':' field
  let hour ← readUInt8? (trim hour)
  let minute ← readUInt8? (trim minute)
  pure (hour, minute)

/-- The minute of the calendar with the given parts. -/
def minuteAt? (year : Int) (month day hour minute : UInt8) : Option DateTime :=
  DateTime.ofParts? year month.toNat day.toNat hour.toNat minute.toNat 0 0

/-! ## 2. Watering lines -/

/-- A line of a watering partition; year and zone stand in the file name. -/
structure WateringLine where
  month : UInt8
  day : UInt8
  hour : UInt8
  minute : UInt8
  duration : UInt16
  schedule : UInt16
  seasonal : Int32
  weather : Int32
  deriving DecidableEq

namespace WateringLine

/-- The line of a run. -/
def ofRun (r : WateringRun) : WateringLine where
  month := .ofNat r.start.date.month
  day := .ofNat r.start.date.day
  hour := .ofNat r.start.time.hour
  minute := .ofNat r.start.time.minute
  duration := r.duration
  schedule := r.schedule
  seasonal := r.seasonal
  weather := r.weather

/-- The fields of a line. -/
def row (l : WateringLine) : List (List Char) :=
  [decimal l.month.toNat, decimal l.day.toNat, clockField l.hour l.minute,
    decimal l.duration.toNat, decimal l.schedule.toNat, signed l.seasonal.toInt,
    signed l.weather.toInt]

/-- The line as it is written. -/
def text (l : WateringLine) : List Char := commaSeparated l.row ++ ['\r', '\n']

/-- The line with the given fields. -/
def ofRow? : List (List Char) → Option WateringLine
  | month :: day :: clock :: duration :: schedule :: seasonal :: weather :: _ => do
    let month ← readUInt8? month
    let day ← readUInt8? day
    let (hour, minute) ← readClock? clock
    let duration ← readUInt16? duration
    let schedule ← readUInt16? schedule
    let seasonal ← readInt32? seasonal
    let weather ← readInt32? weather
    pure { month, day, hour, minute, duration, schedule, seasonal, weather }
  | _ => none

/-- The run of a line in the partition of a year and zone, if its start exists. -/
def run? (year : Int) (zone : UInt8) (l : WateringLine) : Option WateringRun :=
  (minuteAt? year l.month l.day l.hour l.minute).map fun start =>
    { start, zone, duration := l.duration, schedule := l.schedule, seasonal := l.seasonal,
      weather := l.weather }

end WateringLine

/-! ## 3. Sensor lines -/

/-- A line of a sensor partition; sensor, month and year stand in the file name. -/
structure SensorLine where
  day : UInt8
  hour : UInt8
  minute : UInt8
  value : Int32
  deriving DecidableEq

namespace SensorLine

/-- The line of a value read at a time. -/
def ofReading (r : Reading) : SensorLine where
  day := .ofNat r.time.date.day
  hour := .ofNat r.time.time.hour
  minute := .ofNat r.time.time.minute
  value := r.value

/-- The fields of a line. -/
def row (l : SensorLine) : List (List Char) :=
  [decimal l.day.toNat, clockField l.hour l.minute, signed l.value.toInt]

/-- The line as it is written. -/
def text (l : SensorLine) : List Char := commaSeparated l.row ++ ['\n']

/-- The line with the given fields. -/
def ofRow? : List (List Char) → Option SensorLine
  | day :: clock :: value :: _ => do
    let day ← readUInt8? day
    let (hour, minute) ← readClock? clock
    let value ← readInt32? value
    pure { day, hour, minute, value }
  | _ => none

/-- The reading of a line in the partition of a year and month, if its time exists. -/
def reading? (year : Int) (month : UInt8) (l : SensorLine) : Option Reading :=
  (minuteAt? year month l.day l.hour l.minute).map fun time => { time, value := l.value }

end SensorLine

/-! ## 4. System lines -/

/-- A message as it is logged and handed on: without line ends at its end. -/
def trimMessage (message : List Char) : List Char :=
  trimEndWhile (fun c => c == '\r' || c == '\n') message

/-- A text is a message without the line ends at its end: what the message has after the text is
line ends, and the text does not end in one. -/
structure TrimsTo (message text : List Char) : Prop where
  ends : ∃ ends, message = text ++ ends ∧ ∀ c ∈ ends, c = '\r' ∨ c = '\n'
  last : ∀ c ∈ text.getLast?, c ≠ '\r' ∧ c ≠ '\n'

/-- **Every message has one text without line ends at its end**, and that is what is logged. -/
theorem trimsTo_iff {message text : List Char} :
    TrimsTo message text ↔ text = trimMessage message := by
  constructor
  · rintro ⟨⟨ends, rfl, hends⟩, hlast⟩
    rw [trimMessage, trimEndWhile_append (by simpa using hends),
      trimEndWhile_eq_self (by simpa using hlast)]
  · rintro rfl
    obtain ⟨ends, heq, hends⟩ := exists_eq_trimEndWhile_append
      (fun c => c == '\r' || c == '\n') message
    refine ⟨⟨ends, heq, by simpa using hends⟩, fun c hc => ?_⟩
    simpa using eq_false_of_mem_getLast?_trimEndWhile c hc

/-- The line of an event. -/
def systemLine (time : DateTime) (severity : Severity) (message : List Char) : List Char :=
  decimal time.date.day ++ ',' :: decimal time.time.hour ++ ':' :: decimal time.time.minute ++
    ':' :: decimal time.time.second ++ ',' :: decimal severity.code.toNat ++
    ',' :: (message ++ ['\n'])

end IrrigationLog
