/-
# Watering runs are read back

What a run of operations recorded for a zone and a year is what a later scan of the zone finds,
run by run and in the order of the calls.  Other operations may come in between, also ones that
close the book, move the clock or fail: they add nothing to the partition.

The runs have to come in the order of their dates, because a scan ends at the first line past
its range.  What a partition does not keep is the second at which a run started.

The argument has two halves.  `Proofs/Calls.lean` says which bytes a run of operations leaves
in a file, and `Proofs/SortedScan.lean` what a scan finds in such bytes; between them stands
`Entry.lineIn?_watering`, by which **the lines of the partition are the lines of the runs**.
-/
import IrrigationLog.Proofs.Calls
import IrrigationLog.Proofs.SortedScan

namespace IrrigationLog

variable {year : Int} {zone : UInt8}

/-! ## 1. What is recorded for a zone -/

namespace Entry

/-- The watering run of an entry, if it belongs to a year and zone. -/
def runOf? (year : Int) (zone : UInt8) : Entry → Option WateringRun
  | watering r => if r.start.date.year = year ∧ r.zone = zone then some r else none
  | _ => none

theorem of_runOf?_eq_some {e : Entry} {r : WateringRun} (h : e.runOf? year zone = some r) :
    r.start.date.year = year ∧ r.zone = zone := by
  cases e with
  | watering r' =>
    simp only [runOf?] at h
    split at h
    · cases h
      assumption
    · cases h
  | reading => cases h
  | event => cases h

/-- **The lines of a watering partition are the lines of the runs recorded for it.** -/
theorem lineIn?_watering (root : Path) (e : Entry) :
    e.lineIn? root (.watering year zone.toNat) =
      (e.runOf? year zone).map fun r => (WateringLine.ofRun r).text := by
  unfold lineIn?
  by_cases hpart : e.partition = .watering year zone.toNat
  · rw [if_pos (Partition.names_path_eq_watering_iff.mpr hpart)]
    cases e with
    | watering r =>
      injection hpart with hyear hzone
      rw [runOf?, if_pos ⟨hyear, UInt8.toNat_inj.mp hzone⟩]
      rfl
    | reading => cases hpart
    | event => cases hpart
  · rw [if_neg fun hnames => hpart (Partition.names_path_eq_watering_iff.mp hnames)]
    cases e with
    | watering r =>
      have hkey : ¬ (r.start.date.year = year ∧ r.zone = zone) := by
        rintro ⟨rfl, rfl⟩
        exact hpart rfl
      rw [runOf?, if_neg hkey]
      rfl
    | reading => rfl
    | event => rfl

end Entry

namespace LogBook

variable {b : LogBook}

/-- The runs that are recorded for a year and zone, in the order of the calls. -/
def recordedRuns (b : LogBook) (ops : List Operation) (year : Int) (zone : UInt8) :
    List WateringRun :=
  (b.entries ops).filterMap (Entry.runOf? year zone)

theorem of_mem_recordedRuns {ops : List Operation} {r : WateringRun}
    (h : r ∈ b.recordedRuns ops year zone) : r.start.date.year = year ∧ r.zone = zone := by
  obtain ⟨e, -, he⟩ := List.mem_filterMap.mp h
  exact Entry.of_runOf?_eq_some he

/-! ## 2. What a scan finds -/

/-- **Recorded watering runs are read back.**  A zone without a recorded run has no
partition. -/
theorem scanZone_run (h : b.fault = none)
    (habsent : b.tree.find? ((Partition.watering year zone.toNat).path b.root).names = none)
    (ops : List Operation)
    (hsorted : ((b.recordedRuns ops year zone).map fun r => r.start.date).Pairwise (· ≤ ·))
    (from_ to_ : Date) (hyear : from_.year = year) :
    (b.run ops).1.logTree.scanZone zone (.spanning from_ to_) =
      if b.recordedRuns ops year zone = [] then none
      else some (((b.recordedRuns ops year zone).filter fun r =>
        (DayRange.spanning from_ to_).covers r.start.date).map WateringRun.toMinute) := by
  have hrange : (DayRange.spanning from_ to_).year = year := by
    rw [DayRange.year, DayRange.start_spanning, hyear]
  have hlines : b.linesIn ops b.root (.watering year zone.toNat)
      = (b.recordedRuns ops year zone).map fun r => (WateringLine.ofRun r).text :=
    linesIn_eq_map (Entry.lineIn?_watering b.root) b ops
  have hheader : (Partition.watering year zone.toNat).header = Partition.wateringHeader := rfl
  have hscan := scanWatering_encode (hyear ▸ DayRange.inYear_spanning from_ to_)
    (fun r hr => of_mem_recordedRuns hr) hsorted
  unfold LogTree.scanZone
  rw [hrange, open?_run h habsent, hlines, hheader]
  by_cases hnone : b.recordedRuns ops year zone = []
  · rw [if_pos hnone, if_pos (by rw [hnone, List.map_nil]), Option.map_none]
  · rw [if_neg hnone, if_neg (by simpa using hnone), Option.map_some, hscan]

/-- Half an hour of zone 1 at the start of the count, a tenth of it taken back. -/
def firstRun : WateringRun :=
  { start := .epoch, zone := 1, duration := 30, schedule := 2, seasonal := -10, weather := 100 }

/-- The same run three times, the second time while the book is closed. -/
def threeRuns : List Operation :=
  [.setUp, .watering firstRun, .close, .watering firstRun, .setUp, .watering firstRun]

/-- Of three runs two are read back. -/
theorem scanZone_run_of_blank :
    blank.fault = none ∧
    blank.tree.find? ((Partition.watering 1970 (1 : UInt8).toNat).path blank.root).names = none ∧
    ((blank.recordedRuns threeRuns 1970 1).map fun r => r.start.date).Pairwise (· ≤ ·) ∧
    Date.epoch.year = 1970 ∧
    (blank.run threeRuns).1.logTree.scanZone 1 (.spanning .epoch .epoch)
      = some [firstRun, firstRun] := by
  have hfault : blank.fault = none := rfl
  have habsent :
      blank.tree.find? ((Partition.watering 1970 (1 : UInt8).toNat).path blank.root).names
        = none := rfl
  have hruns : blank.recordedRuns threeRuns 1970 1 = [firstRun, firstRun] := by decide +kernel
  have hsorted :
      ((blank.recordedRuns threeRuns 1970 1).map fun r => r.start.date).Pairwise (· ≤ ·) := by
    rw [hruns]
    decide
  refine ⟨hfault, habsent, hsorted, rfl, ?_⟩
  rw [scanZone_run hfault habsent _ hsorted .epoch .epoch rfl, hruns]
  decide +kernel

end LogBook

end IrrigationLog
