/-
# Station settings

What a station is configured with, and the water counters it carries along: how many zones it
has, how much water flows in each, and how much has been used.

Zones are numbered from 1; a zone without a configured flow rate has flow rate 0.  At most
eight zones are ever reported, whatever number is configured.  A weekday is counted from
Sunday as 0; reading a weekday that does not exist gives 0 and writing it changes nothing.
-/
import IrrigationLog.Calendar.DateTime

namespace IrrigationLog

/-- The settings of a station. -/
structure Station where
  /-- The configured number of zones. -/
  zones : UInt8 := 8
  /-- The flow rate of each zone in flow units per hour, zone 1 first. -/
  flowRates : List UInt16 := []
  /-- Water used per weekday in hundredths of a flow-unit-minute, Sunday first. -/
  weekdayCounters : Vector UInt32 7 := Vector.replicate 7 0
  /-- Water used before, in flow-unit-minutes. -/
  lifetime : UInt32 := 0
  /-- When a weekday was last folded into the lifetime counter. -/
  counterDate : Option DateTime := none
  deriving DecidableEq

namespace Station

/-- The largest number of zones a station reports. -/
def maxZones : UInt8 := 8

instance : Inhabited Station := ⟨{}⟩

/-- A station whose zones all have the same flow rate. -/
def uniform (zones : UInt8) (flowRate : UInt16) : Station :=
  { zones, flowRates := List.replicate zones.toNat flowRate }

/-- The number of zones the station reports. -/
def numberOfZones (s : Station) : UInt8 := min s.zones maxZones

/-- The flow rate of a zone. -/
def flowRate (s : Station) (zone : UInt8) : UInt16 :=
  if zone = 0 then 0 else s.flowRates.getD (zone.toNat - 1) 0

/-- The counter of a weekday. -/
def weekdayCounter (s : Station) (weekday : Nat) : UInt32 := s.weekdayCounters[weekday]?.getD 0

/-- The station with a new counter for a weekday. -/
def setWeekdayCounter (s : Station) (weekday : Nat) (value : UInt32) : Station :=
  { s with weekdayCounters := s.weekdayCounters.setIfInBounds weekday value }

/-- The station with a new flow rate for a zone; zones before it that had none get 0. -/
def setFlowRate (s : Station) (zone : UInt8) (rate : UInt16) : Station :=
  let missing := zone.toNat - s.flowRates.length
  { s with flowRates := (s.flowRates ++ List.replicate missing 0).set (zone.toNat - 1) rate }

end Station

end IrrigationLog
