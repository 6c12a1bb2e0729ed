/-
# Times of day and date-times

The controller keeps wall-clock time without a zone.  A `DateTime` is a day and a time of day
to the nanosecond; the log files keep whole minutes or seconds of it, and the running counter
keeps all of it.

Seconds are counted from 1970-01-01 00:00:00, fractions cut off.

* `DateTime.epochSeconds` and its inverse `DateTime.ofEpochSeconds?`;
* `DateTime.hourStart`, `dayStart`, `monthStart`: the beginnings of the enclosing intervals;
* `DateTime.toMinute`: what a partition line keeps of a time.
-/
import IrrigationLog.Calendar.Date

namespace IrrigationLog

/-- A time of day. -/
structure TimeOfDay where
  hour : Nat
  minute : Nat
  second : Nat
  nanosecond : Nat
  hour_lt : hour < 24
  minute_lt : minute < 60
  second_lt : second < 60
  nanosecond_lt : nanosecond < 1000000000
  deriving DecidableEq

namespace TimeOfDay

/-- The start of a day. -/
def midnight : TimeOfDay := ⟨0, 0, 0, 0, by decide, by decide, by decide, by decide⟩

instance : Inhabited TimeOfDay := ⟨midnight⟩

/-- The time of day with the given parts, if it exists. -/
def ofParts? (hour minute second nanosecond : Nat) : Option TimeOfDay :=
  if h : hour < 24 ∧ minute < 60 ∧ second < 60 ∧ nanosecond < 1000000000 then
    some ⟨hour, minute, second, nanosecond, h.1, h.2.1, h.2.2.1, h.2.2.2⟩
  else none

/-- A time of day has the parts from which it was made, and no others. -/
theorem ofParts?_eq_some_iff {h m s n : Nat} {t : TimeOfDay} :
    ofParts? h m s n = some t ↔
      t.hour = h ∧ t.minute = m ∧ t.second = s ∧ t.nanosecond = n := by
  constructor
  · intro hparts
    unfold ofParts? at hparts
    split at hparts
    · cases hparts
      exact ⟨rfl, rfl, rfl, rfl⟩
    · cases hparts
  · intro hparts
    obtain ⟨rfl, rfl, rfl, rfl⟩ := hparts
    exact dif_pos ⟨t.hour_lt, t.minute_lt, t.second_lt, t.nanosecond_lt⟩

/-- The seconds since midnight. -/
def seconds (t : TimeOfDay) : Nat := t.hour * 3600 + t.minute * 60 + t.second

/-- The time of day a number of seconds after midnight; whole days are left out. -/
def ofSeconds (n : Nat) : TimeOfDay where
  hour := n % 86400 / 3600
  minute := n % 3600 / 60
  second := n % 60
  nanosecond := 0
  hour_lt := by omega
  minute_lt := by omega
  second_lt := by omega
  nanosecond_lt := by decide

end TimeOfDay

/-- A day and a time of day. -/
structure DateTime where
  date : Date
  time : TimeOfDay
  deriving DecidableEq, Inhabited

namespace DateTime

/-- The first instant of the count. -/
def epoch : DateTime := ⟨Date.epoch, TimeOfDay.midnight⟩

/-- The date-time with the given parts, if it exists. -/
def ofParts? (year : Int) (month day hour minute second nanosecond : Nat) : Option DateTime := do
  let date ← Date.ofYmd? year month day
  let time ← TimeOfDay.ofParts? hour minute second nanosecond
  pure ⟨date, time⟩

/-- The seconds since 1970-01-01 00:00:00, fractions cut off. -/
def epochSeconds (t : DateTime) : Int := t.date.dayNumber * 86400 + t.time.seconds

/-- The date-time a number of seconds after 1970-01-01 00:00:00, if the calendar has it. -/
def ofEpochSeconds? (n : Int) : Option DateTime :=
  (Date.ofDayNumber? (n / 86400)).map fun d => ⟨d, .ofSeconds (n % 86400).toNat⟩

/-- Midnight at the start of the day. -/
def dayStart (t : DateTime) : DateTime := ⟨t.date, .midnight⟩

/-- The start of the clock hour. -/
def hourStart (t : DateTime) : DateTime :=
  ⟨t.date, ⟨t.time.hour, 0, 0, 0, t.time.hour_lt, by decide, by decide, by decide⟩⟩

/-- Midnight at the start of the month. -/
def monthStart (t : DateTime) : DateTime := ⟨t.date.monthStart, .midnight⟩

/-- The same minute at second zero. -/
def toMinute (t : DateTime) : DateTime :=
  ⟨t.date, ⟨t.time.hour, t.time.minute, 0, 0, t.time.hour_lt, t.time.minute_lt, by decide,
    by decide⟩⟩

end DateTime

end IrrigationLog
