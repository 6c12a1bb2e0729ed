/-
# Query ranges

A query covers the days from a start up to an end within one calendar year.  The day after the
last one asked for is included; an end before the start counts as the start, and an end that
would pass into another year is drawn back to 31 December, which the range remembers.
-/
import IrrigationLog.Calendar.Date

namespace IrrigationLog

/-- The days of one year that a query covers. -/
structure DayRange where
  start : Date
  /-- The last day covered. -/
  finish : Date
  /-- Whether the last day was drawn back to the end of the year. -/
  truncated : Bool
  deriving DecidableEq

namespace DayRange

/-- The range that a query from one day to another covers. -/
def spanning (from_ to_ : Date) : DayRange :=
  let last := from_.later to_
  let finish := last.next?.getD last
  if finish.year = from_.year then ⟨from_, finish, false⟩
  else ⟨from_, from_.yearEnd, true⟩

/-- The year of the range. -/
def year (r : DayRange) : Int := r.start.year

/-- The months of the range in order. -/
def months (r : DayRange) : List Nat :=
  (List.range (r.finish.month + 1 - r.start.month)).map (r.start.month + ·)

/-- Whether a month and day, of any size, come no earlier than the start. -/
def hasStarted (r : DayRange) (month day : Nat) : Bool :=
  r.start.month < month || (month == r.start.month && r.start.day ≤ day)

/-- Whether a month and day, of any size, come later than the end. -/
def isPastEnd (r : DayRange) (month day : Nat) : Bool :=
  r.finish.month < month || (month == r.finish.month && r.finish.day < day)

end DayRange

end IrrigationLog
