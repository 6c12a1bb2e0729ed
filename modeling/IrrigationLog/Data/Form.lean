/-
# Forms: records as structured data

Each kind of record has one form in structured data, into which it is put and from which it is
read.

A structure is put into a record of its fields in a fixed order.  It is read from a record
with its fields in any order, further fields being let go, or from a list of its fields in
order.  A field given twice is an error.  A field left out stands for its default, if it has
one; an absent optional field of a record reads as absent, but a list has to reach it.

Readers differ in one point: whether a list may have more items than are asked for.  A strict
reader refuses it, a lenient one takes the first items.
-/
import IrrigationLog.Data.Basic
import IrrigationLog.Record
import IrrigationLog.Vocabulary.Grouping
import IrrigationLog.Vocabulary.Sensor
import IrrigationLog.WaterCounter
import IrrigationLog.Calendar.Written

namespace IrrigationLog

namespace Data

/-! ## 1. Simple values -/

/-- Whether a list may have more items than are asked for. -/
inductive Reader where
  | strict
  | lenient
  deriving DecidableEq

/-- A number within bounds. -/
def intIn? (low high : Int) : Data → Option Int
  | int i => if low ≤ i ∧ i ≤ high then some i else none
  | _ => none

/-- A number of one byte. -/
def uint8? (d : Data) : Option UInt8 := (d.intIn? 0 (UInt8.size - 1)).map fun i => .ofNat i.toNat

/-- A number of two bytes. -/
def uint16? (d : Data) : Option UInt16 :=
  (d.intIn? 0 (UInt16.size - 1)).map fun i => .ofNat i.toNat

/-- A number of four bytes. -/
def uint32? (d : Data) : Option UInt32 :=
  (d.intIn? 0 (UInt32.size - 1)).map fun i => .ofNat i.toNat

/-- A number of eight bytes. -/
def uint64? (d : Data) : Option UInt64 :=
  (d.intIn? 0 (UInt64.size - 1)).map fun i => .ofNat i.toNat

/-- A number of four bytes with a sign. -/
def int32? (d : Data) : Option Int32 :=
  (d.intIn? Int32.minValue.toInt Int32.maxValue.toInt).map Int32.ofInt

/-- A number of eight bytes with a sign. -/
def int64? (d : Data) : Option Int64 :=
  (d.intIn? Int64.minValue.toInt Int64.maxValue.toInt).map Int64.ofInt

/-- A truth value. -/
def bool? : Data → Option Bool
  | bool b => some b
  | _ => none

/-- A text. -/
def text? : Data → Option String
  | text s => some s
  | _ => none

/-- A value that may be null. -/
def optional? (read? : Data → Option α) : Data → Option (Option α)
  | null => some none
  | d => (read? d).map some

/-- All items of a list. -/
def list? (read? : Data → Option α) : Data → Option (List α)
  | list items => items.mapM read?
  | _ => none

/-- A given number of items. -/
def vector? (reader : Reader) (n : Nat) (read? : Data → Option α) : Data → Option (Vector α n)
  | list items => do
    let taken ← (items.take n).mapM read?
    if h : taken.length = n ∧ (reader = .lenient ∨ items.length = n) then
      some ⟨taken.toArray, by simpa using h.1⟩
    else none
  | _ => none

/-- A date-time: year, day number in the year, hour, minute, second and nanosecond. -/
def dateTime? (reader : Reader) : Data → Option DateTime
  | list (year :: ordinal :: hour :: minute :: second :: nanosecond :: more) =>
    if reader = .lenient ∨ more.isEmpty then do
      let year ← year.int32?
      let ordinal ← ordinal.uint16?
      let hour ← hour.uint8?
      let minute ← minute.uint8?
      let second ← second.uint8?
      let nanosecond ← nanosecond.uint32?
      DateTime.ofOrdinalParts? year.toInt ordinal.toNat hour.toNat minute.toNat second.toNat
        nanosecond.toNat
    else none
  | _ => none

/-- One of the names of a table: the name alone, or a record with the name and null. -/
def name? (table : List (String × α)) : Data → Option α
  | text s => table.lookup s
  | record [(s, null)] => table.lookup s
  | _ => none

/-- The numbered form of a date-time. -/
def ofDateTime (t : DateTime) : Data := ints t.parts

/-- A value, or null in its place. -/
def ofOptional (put : α → Data) : Option α → Data
  | none => null
  | some a => put a

/-! ## 2. Fields -/

/-- What the data has for a field. -/
inductive Slot where
  | given (d : Data)
  /-- A record does not mention the field. -/
  | missing
  /-- A list ends before the field. -/
  | cutOff

namespace Slot

/-- A field that has to be given. -/
def required? (read? : Data → Option α) : Slot → Option α
  | given d => read? d
  | _ => none

/-- A field that a record may leave out. -/
def optional? (read? : Data → Option α) : Slot → Option (Option α)
  | given d => d.optional? read?
  | missing => some none
  | cutOff => none

/-- A field with a default. -/
def default? (a : α) (read? : Data → Option α) : Slot → Option α
  | given d => read? d
  | _ => some a

end Slot

/-- What a record has for a field, unless it has it twice. -/
def fieldSlot? (fields : List (String × Data)) (name : String) : Option Slot :=
  match fields.filter fun f => f.1 == name with
  | [] => some .missing
  | [f] => some (.given f.2)
  | _ => none

/-- What the data has for each of the named fields. -/
def slots? (reader : Reader) (names : List String) : Data → Option (List Slot)
  | record fields => names.mapM (fieldSlot? fields)
  | list items =>
    if reader = .lenient ∨ items.length ≤ names.length then
      some ((items.take names.length).map Slot.given ++
        List.replicate (names.length - items.length) .cutOff)
    else none
  | _ => none

end Data

open Data

/-! ## 3. Words -/

/-- The table of the names of all values of a kind. -/
def wordTable (word : α → String) (values : List α) : List (String × α) :=
  values.map fun a => (word a, a)

/-- The category that the data names. -/
def Category.ofData? : Data → Option Category := name? (wordTable word all)

/-- The name of a category. -/
def Category.toData (c : Category) : Data := .text c.word

/-- The sensor kind that the data names. -/
def Sensor.ofData? : Data → Option Sensor :=
  name? (wordTable word [temperature, pressure, humidity, waterflow])

/-- The name of a sensor kind. -/
def Sensor.toData (s : Sensor) : Data := .text s.word

/-- The severity that the data names. -/
def Severity.ofData? : Data → Option Severity :=
  name? (wordTable word [crit, error, warning, notice, info, verbose])

/-- The name of a severity. -/
def Severity.toData (s : Severity) : Data := .text s.word

/-- The grouping that the data names. -/
def Grouping.ofData? : Data → Option Grouping :=
  name? (wordTable word [hourly, daily, monthly, numeric])

/-- The name of a grouping. -/
def Grouping.toData (g : Grouping) : Data := .text g.word

/-- The summary that the data names. -/
def Summary.ofData? : Data → Option Summary := name? (wordTable word [raw, hour, day, month])

/-- The name of a summary. -/
def Summary.toData (s : Summary) : Data := .text s.word

/-! ## 4. Records -/

/-- The form of a watering run. -/
def WateringRun.toData (r : WateringRun) : Data :=
  .record
    [("start", ofDateTime r.start), ("zone", .int r.zone.toNat),
      ("duration", .int r.duration.toNat), ("schedule", .int r.schedule.toNat),
      ("seasonal_adjustment", .int r.seasonal.toInt),
      ("weather_adjustment", .int r.weather.toInt)]

/-- The watering run of a form. -/
def WateringRun.ofData? (reader : Reader) (d : Data) : Option WateringRun := do
  let slots ← d.slots? reader
    ["start", "zone", "duration", "schedule", "seasonal_adjustment", "weather_adjustment"]
  match slots with
  | [start, zone, duration, schedule, seasonal, weather] => do
    let start ← start.required? (dateTime? reader)
    let zone ← zone.required? uint8?
    let duration ← duration.required? uint16?
    let schedule ← schedule.required? uint16?
    let seasonal ← seasonal.required? int32?
    let weather ← weather.required? int32?
    pure { start, zone, duration, schedule, seasonal, weather }
  | _ => none

/-- The form of a reading. -/
def Reading.toData (r : Reading) : Data :=
  .record [("timestamp", ofDateTime r.time), ("reading", .int r.value.toInt)]

/-- The reading of a form. -/
def Reading.ofData? (reader : Reader) (d : Data) : Option Reading := do
  let slots ← d.slots? reader ["timestamp", "reading"]
  match slots with
  | [time, value] => do
    let time ← time.required? (dateTime? reader)
    let value ← value.required? int32?
    pure { time, value }
  | _ => none

/-- The form of an event chunk. -/
def EventChunk.toData (c : EventChunk) : Data :=
  .record
    [("severity", c.severity.toData), ("timestamp", .int c.timestamp.toInt),
      ("continuation", .bool c.continuation), ("payload", .text c.payload)]

/-- The event chunk of a form. -/
def EventChunk.ofData? (reader : Reader) (d : Data) : Option EventChunk := do
  let slots ← d.slots? reader ["severity", "timestamp", "continuation", "payload"]
  match slots with
  | [severity, timestamp, continuation, payload] => do
    let severity ← severity.required? Severity.ofData?
    let timestamp ← timestamp.required? int64?
    let continuation ← continuation.required? bool?
    let payload ← payload.required? text?
    pure { severity, timestamp, continuation, payload }
  | _ => none

/-! ## 5. Settings and counters -/

/-- The form of the settings of a station. -/
def Station.toData (s : Station) : Data :=
  .record
    [("zones", .int s.zones.toNat),
      ("flow_rates", .list (s.flowRates.map fun r => .int r.toNat)),
      ("weekday_counters", .list (s.weekdayCounters.toList.map fun c => .int c.toNat)),
      ("lifetime_counter", .int s.lifetime.toNat),
      ("counter_date", ofOptional ofDateTime s.counterDate)]

/-- The settings of a form; every field has a default. -/
def Station.ofData? (reader : Reader) (d : Data) : Option Station := do
  let slots ← d.slots? reader
    ["zones", "flow_rates", "weekday_counters", "lifetime_counter", "counter_date"]
  match slots with
  | [zones, flowRates, weekdayCounters, lifetime, counterDate] => do
    let zones ← zones.default? 8 uint8?
    let flowRates ← flowRates.default? [] (list? uint16?)
    let weekdayCounters ←
      weekdayCounters.default? (Vector.replicate 7 0) (vector? reader 7 uint32?)
    let lifetime ← lifetime.default? 0 uint32?
    let counterDate ← counterDate.default? none (Data.optional? (dateTime? reader))
    pure { zones, flowRates, weekdayCounters, lifetime, counterDate }
  | _ => none

/-- The form of the running counters. -/
def WaterCounter.toData (c : WaterCounter) : Data :=
  .record
    [("weekday", .list (c.weekday.toList.map fun n => .int n.toNat)),
      ("lifetime", .int c.lifetime.toNat), ("updated_at", ofOptional ofDateTime c.updatedAt)]

/-- The running counters of a form. -/
def WaterCounter.ofData? (reader : Reader) (d : Data) : Option WaterCounter := do
  let slots ← d.slots? reader ["weekday", "lifetime", "updated_at"]
  match slots with
  | [weekday, lifetime, updatedAt] => do
    let weekday ← weekday.required? (vector? reader 7 uint32?)
    let lifetime ← lifetime.required? uint32?
    let updatedAt ← updatedAt.optional? (dateTime? reader)
    pure { weekday, lifetime, updatedAt }
  | _ => none

end IrrigationLog
