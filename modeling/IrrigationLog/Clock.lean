/-
# The manual clock

A clock that shows what it was last set to, moved on by what it was advanced since.  It counts
whole seconds from 1970-01-01 00:00:00 in a 64-bit word: an advance wraps around at the ends
of the word, and a count that denotes no instant of the calendar shows as the first instant
of the count, with nothing forgotten when a later advance brings it back.
-/
import IrrigationLog.Calendar.DateTime

namespace IrrigationLog

/-- The seconds counted by a manual clock. -/
structure Clock where
  seconds : Int64
  deriving DecidableEq, Inhabited

namespace Clock

/-- A clock set to an instant. -/
def setTo (at_ : DateTime) : Clock := ⟨.ofInt at_.epochSeconds⟩

/-- The clock moved on by a number of seconds, back for a negative one. -/
def advance (c : Clock) (by_ : Int64) : Clock := ⟨c.seconds + by_⟩

/-- What the clock shows. -/
def now (c : Clock) : DateTime := (DateTime.ofEpochSeconds? c.seconds.toInt).getD .epoch

end Clock

end IrrigationLog
