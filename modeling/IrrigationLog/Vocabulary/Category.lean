/-
# Log categories

Each category of log data owns one directory below the root of the log tree.  The directory
names are part of the format on disk.
-/

namespace IrrigationLog

/-- What a log directory holds. -/
inductive Category where
  | system
  | watering
  | temperature
  | humidity
  | pressure
  | waterflow
  deriving DecidableEq

namespace Category

/-- All categories, in the order in which their directories are set up. -/
def all : List Category := [system, watering, waterflow, temperature, humidity, pressure]

/-- The directory of a category, below the root of the tree. -/
def dirName : Category → String
  | system => "logs"
  | watering => "watering.log"
  | temperature => "tempr.log"
  | humidity => "humid.log"
  | pressure => "pressure.log"
  | waterflow => "wflow.log"

/-- The name shown to a reader. -/
def title : Category → String
  | system => "System"
  | watering => "Watering"
  | temperature => "Temperature"
  | humidity => "Humidity"
  | pressure => "Pressure"
  | waterflow => "Waterflow"

/-- The name in structured data. -/
def word : Category → String
  | system => "system"
  | watering => "watering"
  | temperature => "temperature"
  | humidity => "humidity"
  | pressure => "pressure"
  | waterflow => "waterflow"

/-- No category is left out of the set-up. -/
theorem mem_all (c : Category) : c ∈ all := by cases c <;> decide

/-- Two categories never share a directory. -/
theorem dirName_injective {c d : Category} (h : c.dirName = d.dirName) : c = d := by
  cases c <;> cases d <;> first | rfl | exact absurd h (by decide)

end Category

end IrrigationLog
