/-
# Operations on a log book

Everything that can be done to a log book is an operation; a run is a list of them, carried
out one after the other.  A query leaves the book as it is.

* `LogBook.step` carries out one operation, `LogBook.run` a list of them;
* `Outcome` is what an operation gives back: whether it succeeded, the announcement of an
  event, and the document of a query.
-/
import IrrigationLog.LogBook.Recording

namespace IrrigationLog

/-- An operation on a log book. -/
inductive Operation where
  | setUp
  | close
  | watering (r : WateringRun)
  | sensor (code : UInt8) (id : UInt16) (value : Int32)
  | reading (kind : Sensor) (id : UInt16) (value : Int32)
  | event (severity : Severity) (message : String)
  | setClock (to_ : DateTime)
  | advanceClock (by_ : Int64)
  | setLimits (limits : EventLimits)
  | replaceStation (station : Station)
  | query (q : Query)

/-- What an operation gives back. -/
structure Outcome where
  result : Except StoreError Unit := .ok ()
  announcement : Option Announcement := none
  document : List UInt8 := []

namespace LogBook

/-- Carries out an operation. -/
def step (b : LogBook) : Operation → LogBook × Outcome
  | .setUp => let (b, result) := b.setUp; (b, { result })
  | .close => (b.close, {})
  | .watering r => let (b, result) := b.recordWatering r; (b, { result })
  | .sensor code id value => let (b, result) := b.recordSensor code id value; (b, { result })
  | .reading kind id value => let (b, result) := b.recordReading kind id value; (b, { result })
  | .event severity message =>
    let (b, result, announcement) := b.recordEvent severity message
    (b, { result, announcement })
  | .setClock to_ => ({ b with clock := .setTo to_ }, {})
  | .advanceClock by_ => ({ b with clock := b.clock.advance by_ }, {})
  | .setLimits limits => ({ b with limits }, {})
  | .replaceStation station => ({ b with station }, {})
  | .query q =>
    let (document, result) := b.logTree.writeAnswer q "" none
    (b, { result, document })

/-- Carries out a list of operations, in order. -/
def run (b : LogBook) : List Operation → LogBook × List Outcome
  | [] => (b, [])
  | op :: ops =>
    let (b, outcome) := b.step op
    let (b, outcomes) := b.run ops
    (b, outcome :: outcomes)

end LogBook

end IrrigationLog
