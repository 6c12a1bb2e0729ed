/-
# Readings are read back

What a run of operations recorded for a sensor is what a later series without a summary hands
to its receiver, reading by reading and in the order of the calls, over all the months of the
range.

The readings have to come in the order of their dates, as in `Proofs/WateringRoundTrip.lean`.
There is a second condition: the name of a sensor partition holds two digits of the year, so
readings of 1924 and of 2024 share their files, and a series of one year would show those of
the other as its own.

A sensor has one file for each month.  What stands in it are the readings of the month
(`Entry.lineIn?_sensor`), a scan finds those of them that the range covers
(`LogBook.scanSensor_run`), and the months together give them all back in order.
-/
import IrrigationLog.Proofs.Calls
import IrrigationLog.Proofs.SeriesPoints
import IrrigationLog.Proofs.SortedScan

namespace IrrigationLog

variable {kind : Sensor} {id : UInt16} {year : Int} {month : Nat}

/-! ## 1. What is recorded for a sensor -/

/-- The reading as a partition keeps it: taken on the minute. -/
def Reading.toMinute (r : Reading) : Reading := { r with time := r.time.toMinute }

/-- Whether a reading belongs to a month. -/
def Reading.inMonth (year : Int) (month : Nat) (r : Reading) : Bool :=
  r.time.date.month = month && r.time.date.year = year

namespace Entry

/-- The reading of an entry, if it is one of a sensor. -/
def readingOf? (kind : Sensor) (id : UInt16) : Entry → Option Reading
  | reading k i r => if k = kind ∧ i = id then some r else none
  | _ => none

/-- **The lines of a sensor partition are the lines of the readings taken in its month**, in
any of the years that its name may mean. -/
theorem lineIn?_sensor (root : Path) (e : Entry) :
    e.lineIn? root (.sensor kind month year id.toNat) =
      ((e.readingOf? kind id).filter fun r =>
        r.time.date.month = month && r.time.date.year % 100 = year % 100).map fun r =>
          (SensorLine.ofReading r).text := by
  unfold lineIn?
  cases e with
  | watering r =>
    refine if_neg fun hnames => ?_
    obtain ⟨y, hpart, -⟩ := Partition.names_path_eq_sensor_iff.mp hnames
    cases hpart
  | event time severity message =>
    refine if_neg fun hnames => ?_
    obtain ⟨y, hpart, -⟩ := Partition.names_path_eq_sensor_iff.mp hnames
    cases hpart
  | reading k i r =>
    have hnames : ((reading k i r).partition.path root).names
          = ((Partition.sensor kind month year id.toNat).path root).names ↔
        (k = kind ∧ i = id) ∧
          r.time.date.month = month ∧ r.time.date.year % 100 = year % 100 := by
      rw [Partition.names_path_eq_sensor_iff]
      constructor
      · rintro ⟨y, hpart, hy⟩
        injection hpart with hkind hmonth hyear hid
        exact ⟨⟨hkind, UInt16.toNat_inj.mp hid⟩, hmonth, hyear ▸ hy⟩
      · rintro ⟨⟨rfl, rfl⟩, rfl, hy⟩
        exact ⟨r.time.date.year, rfl, hy⟩
    by_cases hkey : k = kind ∧ i = id
    · have hread : (reading k i r).readingOf? kind id = some r := if_pos hkey
      rw [hread]
      by_cases hmonth : r.time.date.month = month ∧ r.time.date.year % 100 = year % 100
      · rw [if_pos (hnames.mpr ⟨hkey, hmonth⟩), Option.filter_some, if_pos (by simpa using hmonth)]
        rfl
      · rw [if_neg fun hn => hmonth (hnames.mp hn).2, Option.filter_some,
          if_neg (by simpa using hmonth)]
        rfl
    · have hread : (reading k i r).readingOf? kind id = none := if_neg hkey
      rw [hread, if_neg fun hn => hkey (hnames.mp hn).1]
      rfl

end Entry

namespace LogBook

variable {b : LogBook} {ops : List Operation}

/-- The readings that are recorded for a sensor, in the order of the calls. -/
def recordedReadings (b : LogBook) (ops : List Operation) (kind : Sensor) (id : UInt16) :
    List Reading :=
  (b.entries ops).filterMap (Entry.readingOf? kind id)

/-! ## 2. One month -/

/-- The lines in the partition of a month are those of its readings, if no other year has left
any there. -/
theorem linesIn_sensor (hyears : ∀ r ∈ b.recordedReadings ops kind id,
      r.time.date.year % 100 = year % 100 → r.time.date.year = year) (root : Path) :
    b.linesIn ops root (.sensor kind month year id.toNat) =
      ((b.recordedReadings ops kind id).filter (Reading.inMonth year month)).map fun r =>
        (SensorLine.ofReading r).text := by
  rw [linesIn_eq_map (Entry.lineIn?_sensor root), ← List.filter_filterMap]
  congr 1
  refine List.filter_congr fun r hr => ?_
  rw [Reading.inMonth, Bool.eq_iff_iff]
  simp only [Bool.and_eq_true, decide_eq_true_eq]
  refine and_congr_right fun _ => ⟨hyears r hr, ?_⟩
  rintro rfl
  rfl

/-- **What a scan finds in the partition of a month.** -/
theorem scanSensor_run (h : b.fault = none) {month : UInt8}
    (habsent : b.tree.find? ((Partition.sensor kind month.toNat year id.toNat).path
      b.root).names = none)
    (hsorted : ((b.recordedReadings ops kind id).map fun r => r.time.date).Pairwise (· ≤ ·))
    (hyears : ∀ r ∈ b.recordedReadings ops kind id,
      r.time.date.year % 100 = year % 100 → r.time.date.year = year)
    {range : DayRange} (hr : range.InYear year) :
    ((b.run ops).1.logTree.scanSensor kind id month range).getD [] =
      (((b.recordedReadings ops kind id).filter fun r => range.covers r.time.date).filter fun r =>
        r.time.date.month = month.toNat).map Reading.toMinute := by
  have hheader : (Partition.sensor kind month.toNat year id.toNat).header
      = Partition.sensorHeader kind := rfl
  have hyear : range.year = year := hr.1
  have hfound : ((b.recordedReadings ops kind id).filter fun r =>
        range.covers r.time.date).filter (fun r => r.time.date.month = month.toNat)
      = ((b.recordedReadings ops kind id).filter (Reading.inMonth year month.toNat)).filter
        fun r => range.covers r.time.date := by
    rw [List.filter_filter, List.filter_filter]
    refine List.filter_congr fun r _ => ?_
    rw [Reading.inMonth, Bool.eq_iff_iff]
    simp only [Bool.and_eq_true, decide_eq_true_eq]
    constructor
    · rintro ⟨hmonth, hcov⟩
      exact ⟨hcov, hmonth, hr.year_eq hcov⟩
    · rintro ⟨hcov, hmonth, -⟩
      exact ⟨hmonth, hcov⟩
  rw [hfound]
  unfold LogTree.scanSensor
  rw [hyear, open?_run h habsent, linesIn_sensor hyears, hheader]
  by_cases hnone : (b.recordedReadings ops kind id).filter (Reading.inMonth year month.toNat) = []
  · rw [hnone, List.map_nil, if_pos rfl]
    rfl
  · rw [if_neg (by simpa only [List.map_eq_nil_iff] using hnone), Option.map_some,
      Option.getD_some]
    refine scanReadings_encode hr (fun r hmem => ?_) ?_
    · have hin := (List.mem_filter.mp hmem).2
      simp only [Reading.inMonth, Bool.and_eq_true, decide_eq_true_eq] at hin
      exact ⟨hin.2, hin.1⟩
    · exact hsorted.sublist (List.filter_sublist.map _)

/-! ## 3. All months -/

/-- The points of a series without a summary are the readings that its range covers. -/
theorem seriesPoints_run (h : b.fault = none)
    (habsent : ∀ d : Date,
      b.tree.find? ((Partition.sensor kind d.month d.year id.toNat).path b.root).names = none)
    (hsorted : ((b.recordedReadings ops kind id).map fun r => r.time.date).Pairwise (· ≤ ·))
    (hyears : ∀ r ∈ b.recordedReadings ops kind id,
      r.time.date.year % 100 = year % 100 → r.time.date.year = year)
    {range : DayRange} (hr : range.InYear year) :
    (b.run ops).1.logTree.seriesPoints kind id range .raw =
      ((b.recordedReadings ops kind id).filter fun r => range.covers r.time.date).map fun r =>
        ⟨r.time.toMinute, r.value⟩ := by
  have hmonth : ∀ m ∈ range.months,
      Summary.raw.points (((b.run ops).1.logTree.scanSensor kind id (.ofNat m) range).getD []) =
        (((b.recordedReadings ops kind id).filter fun r =>
          range.covers r.time.date).filter fun r => r.time.date.month = m).map fun r =>
            ⟨r.time.toMinute, r.value⟩ := by
    intro m hm
    have hbounds := DayRange.month_bounds_of_mem hm
    have hword : (UInt8.ofNat m).toNat = m := toNat_ofNat_uint8 (by omega)
    obtain ⟨d, hyear, rfl, -⟩ := range.start.exists_of_month hbounds
    have hgone := habsent d
    rw [hyear, hr.1, ← hword] at hgone
    rw [scanSensor_run h hgone hsorted hyears hr, Summary.points_raw, List.map_map, hword]
    rfl
  have hcovers : ∀ r ∈ (b.recordedReadings ops kind id).filter fun r =>
      range.covers r.time.date, range.covers r.time.date = true :=
    fun r hmem => (List.mem_filter.mp hmem).2
  have hdates := (List.pairwise_map.mp hsorted).filter fun r => range.covers r.time.date
  have hseries := congrArg List.flatten (List.map_congr_left hmonth)
  rw [← List.flatMap_def, ← List.flatMap_def] at hseries
  unfold LogTree.seriesPoints
  rw [hseries]
  generalize (b.recordedReadings ops kind id).filter (fun r => range.covers r.time.date)
    = covered at hcovers hdates
  rw [← List.map_flatMap]
  congr 1
  refine flatMap_filter_eq_self (hdates.imp_of_mem fun {q r} hq hr' hle => ?_) fun r hmem => ?_
  · have hyears := (hr.year_eq (hcovers q hq)).trans (hr.year_eq (hcovers r hr')).symm
    have := (Date.le_iff_of_year_eq hyears).mp hle
    omega
  · have := DayRange.month_bounds_of_covers hr (hcovers r hmem)
    omega

/-- **Recorded readings are read back**, across the months of a range, and counted. -/
theorem forEachPoint_run {σ ε : Type} (h : b.fault = none)
    (habsent : ∀ d : Date,
      b.tree.find? ((Partition.sensor kind d.month d.year id.toNat).path b.root).names = none)
    (ops : List Operation)
    (hsorted : ((b.recordedReadings ops kind id).map fun r => r.time.date).Pairwise (· ≤ ·))
    (hyears : ∀ r ∈ b.recordedReadings ops kind id,
      r.time.date.year % 100 = year % 100 → r.time.date.year = year)
    (from_ to_ : Date) (hyear : from_.year = year)
    (receive : σ → SeriesPoint → Except ε σ) (s : σ) :
    (b.run ops).1.logTree.forEachPoint kind id (.spanning from_ to_) .raw receive s =
      (feed receive s
        (((b.recordedReadings ops kind id).filter fun r =>
          (DayRange.spanning from_ to_).covers r.time.date).map fun r =>
            ⟨r.time.toMinute, r.value⟩)).map fun s =>
        (s, ((b.recordedReadings ops kind id).filter fun r =>
          (DayRange.spanning from_ to_).covers r.time.date).length) := by
  have hr : (DayRange.spanning from_ to_).InYear year := hyear ▸ DayRange.inYear_spanning from_ to_
  rw [LogTree.forEachPoint_eq, seriesPoints_run h habsent hsorted hyears hr, List.length_map]

/-- Forty days after the start of the count it is 10 February. -/
def tenthOfFebruary : DateTime := (Clock.mk 3456000).now

/-- Two readings of one sensor in two months, and one of another. -/
def threeReadings : List Operation :=
  [.setUp, .reading .temperature 7 68, .reading .humidity 7 40, .advanceClock 3456000,
    .sensor 1 7 (-3)]

/-- The readings of the one sensor are read back from both months. -/
theorem forEachPoint_run_of_blank :
    blank.fault = none ∧
    (∀ d : Date, blank.tree.find? ((Partition.sensor .temperature d.month d.year
      (7 : UInt16).toNat).path blank.root).names = none) ∧
    ((blank.recordedReadings threeReadings .temperature 7).map fun r =>
      r.time.date).Pairwise (· ≤ ·) ∧
    (∀ r ∈ blank.recordedReadings threeReadings .temperature 7,
      r.time.date.year % 100 = 1970 % 100 → r.time.date.year = 1970) ∧
    Date.epoch.year = 1970 ∧
    (blank.run threeReadings).1.logTree.forEachPoint .temperature 7
        (.spanning .epoch tenthOfFebruary.date) .raw
        (fun ps p => (.ok (ps ++ [p]) : Except String (List SeriesPoint))) []
      = .ok ([⟨.epoch, 68⟩, ⟨tenthOfFebruary, -3⟩], 2) := by
  have hfault : blank.fault = none := rfl
  have habsent : ∀ d : Date, blank.tree.find? ((Partition.sensor .temperature d.month d.year
      (7 : UInt16).toNat).path blank.root).names = none := fun d => rfl
  have hreadings : blank.recordedReadings threeReadings .temperature 7
      = [⟨.epoch, 68⟩, ⟨tenthOfFebruary, -3⟩] := by decide +kernel
  have hsorted : ((blank.recordedReadings threeReadings .temperature 7).map fun r =>
      r.time.date).Pairwise (· ≤ ·) := by
    rw [hreadings]
    decide
  have hyears : ∀ r ∈ blank.recordedReadings threeReadings .temperature 7,
      r.time.date.year % 100 = 1970 % 100 → r.time.date.year = 1970 := by
    rw [hreadings]
    decide
  refine ⟨hfault, habsent, hsorted, hyears, rfl, ?_⟩
  rw [forEachPoint_run hfault habsent _ hsorted hyears .epoch tenthOfFebruary.date rfl, hreadings]
  rfl

end LogBook

end IrrigationLog
