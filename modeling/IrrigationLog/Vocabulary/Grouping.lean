/-
# Groupings and summaries

A grouping says into which bins the watering runs of a chart go, a summary over which interval
the readings of a series are averaged.
-/
import IrrigationLog.Vocabulary.Basic

namespace IrrigationLog

/-! ## 1. Groupings -/

/-- Into which bins watering runs go. -/
inductive Grouping where
  /-- By hour of the day. -/
  | hourly
  /-- By weekday, Sunday first. -/
  | daily
  /-- By month, January first. -/
  | monthly
  /-- Reserved: there is no rule for its bins. -/
  | numeric
  deriving DecidableEq

namespace Grouping

/-- The number of bins, if the grouping has any. -/
def bins : Grouping → Option Nat
  | hourly => some 24
  | daily => some 7
  | monthly => some 12
  | numeric => none

/-- The largest number of bins of any grouping. -/
def maxBins : Nat := 24

/-- The grouping with a name. -/
def ofName : String → Except VocabularyError Grouping :=
  readName "grouping"
    [("hourly", hourly), ("hour", hourly), ("daily", daily), ("day", daily),
      ("monthly", monthly), ("month", monthly), ("numeric", numeric), ("none", numeric)]

/-- The name in structured data and in messages. -/
def word : Grouping → String
  | hourly => "hourly"
  | daily => "daily"
  | monthly => "monthly"
  | numeric => "numeric"

end Grouping

/-! ## 2. Summaries -/

/-- Over which interval readings are averaged. -/
inductive Summary where
  /-- Not at all: each reading stands for itself. -/
  | raw
  | hour
  | day
  | month
  deriving DecidableEq

namespace Summary

/-- A series is not averaged unless that is asked for. -/
instance : Inhabited Summary := ⟨raw⟩

/-- The summary with a name. -/
def ofName : String → Except VocabularyError Summary :=
  readName "summary"
    [("raw", raw), ("none", raw), ("hour", hour), ("hourly", hour), ("day", day),
      ("daily", day), ("month", month), ("monthly", month)]

/-- The name in structured data. -/
def word : Summary → String
  | raw => "raw"
  | hour => "hour"
  | day => "day"
  | month => "month"

end Summary

end IrrigationLog
