/-
# Sensor kinds

Four kinds of sensor feed the sensor logs.  A remote station hands over the code of a kind, an
operator may also type its name.
-/
import IrrigationLog.Vocabulary.Basic
import IrrigationLog.Vocabulary.Category

namespace IrrigationLog

/-- The kind of a sensor. -/
inductive Sensor where
  | temperature
  | pressure
  | humidity
  | waterflow
  deriving DecidableEq

namespace Sensor

/-- The code of a kind. -/
def code : Sensor → UInt8
  | temperature => 1
  | pressure => 2
  | humidity => 3
  | waterflow => 4

/-- The kind with a code. -/
def ofCode (code : UInt8) : Except VocabularyError Sensor :=
  match code with
  | 1 => .ok temperature
  | 2 => .ok pressure
  | 3 => .ok humidity
  | 4 => .ok waterflow
  | n => .error (.unknownSensorCode n)

/-- The kind with a name. -/
def ofName : String → Except VocabularyError Sensor :=
  readName "sensor type"
    [("temperature", temperature), ("temp", temperature), ("pressure", pressure),
      ("humidity", humidity), ("waterflow", waterflow), ("flow", waterflow)]

/-- The category whose directory holds the readings. -/
def category : Sensor → Category
  | temperature => .temperature
  | pressure => .pressure
  | humidity => .humidity
  | waterflow => .waterflow

/-- The title of the reading's column in a partition. -/
def unit : Sensor → String
  | temperature => "Temperature(F)"
  | pressure => "AirPressure"
  | humidity => "Humidity"
  | waterflow => "Waterflow"

/-- The name shown to a reader, also of a chart series. -/
def title : Sensor → String
  | temperature => "Temperature"
  | pressure => "Air Pressure"
  | humidity => "Humidity"
  | waterflow => "Waterflow"

/-- The name in structured data. -/
def word : Sensor → String
  | temperature => "temperature"
  | pressure => "pressure"
  | humidity => "humidity"
  | waterflow => "waterflow"

/-- The first letters of a partition's file name. -/
def fileMark : Sensor → String
  | temperature => "tm"
  | pressure => "pr"
  | humidity => "hm"
  | waterflow => "wf"

/-- A kind is found by its code. -/
@[simp]
theorem ofCode_code (s : Sensor) : ofCode s.code = .ok s := by cases s <;> rfl

end Sensor

end IrrigationLog
