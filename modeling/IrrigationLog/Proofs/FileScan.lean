/-
# Scans of any file

A scan can be given any bytes.  What it finds can be relied on whatever they are, and it is all
that there is to find if the lines of the file are in order.

* **Sound** (`scanLines_sublist`, `WateringLine.of_found`, `SensorLine.of_found`): a scan finds
  what some of the data records stand for, in the order of the file, and nothing that its range
  does not cover.  The tests of a scan look at the numbers of a line before they are known to be
  a date; once a line stands for a record, its numbers are the date of the record, and the tests
  are comparisons of dates.
* **Complete** (`scanLines_eq_filter`): the numbers of a line need not be a date for the order
  to be of use.  A line that is past the end comes before lines that are past the end as well,
  so that the early stop loses nothing.

`LogTree.scan_any_file` puts the two together, for the partitions of zones and of sensors.
-/
import IrrigationLog.Proofs.MalformedLine
import IrrigationLog.Proofs.SortedScan

namespace IrrigationLog

/-! ## 1. Lists of lines -/

section Lines

variable {α β : Type} {past started : α → Bool} {record? : α → Option β}

/-- What a scan finds is found without an early stop and without a start, too. -/
theorem scanLines_sublist (ls : List α) :
    List.Sublist (scanLines past started record? ls) (ls.filterMap record?) := by
  have hstarted : List.Sublist ((ls.takeWhile fun l => !past l).filter started) ls :=
    List.filter_sublist.trans (List.takeWhile_sublist _)
  exact hstarted.filterMap record?

/-- What a scan finds comes from a line that has started and is not past. -/
theorem exists_of_mem_scanLines {ls : List α} {r : β}
    (h : r ∈ scanLines past started record? ls) :
    ∃ l, past l = false ∧ started l = true ∧ record? l = some r := by
  obtain ⟨l, hl, hr⟩ := List.mem_filterMap.mp h
  obtain ⟨hwhile, hstarted⟩ := List.mem_filter.mp hl
  have hpast : (!past l) = true := List.all_eq_true.mp List.all_takeWhile l hwhile
  exact ⟨l, by simpa using hpast, hstarted, hr⟩

/-- **The early stop loses nothing** where a line past the end is followed by such lines only. -/
theorem scanLines_eq_filter {ls : List α} {covered : β → Bool}
    (hsorted : ls.Pairwise fun k l => past k = true → past l = true)
    (hcovered : ∀ l r, record? l = some r → covered r = (started l && !past l)) :
    scanLines past started record? ls = (ls.filterMap record?).filter covered := by
  have hwhile : ls.takeWhile (fun l => !past l) = ls.filter fun l => !past l := by
    refine takeWhile_eq_filter (hsorted.imp fun {k l} hkl hl => ?_)
    cases hk : past k with
    | false => rfl
    | true =>
      rw [hkl hk] at hl
      cases hl
  unfold scanLines
  rw [hwhile, List.filter_filter, List.filter_filterMap, List.filterMap_filter]
  refine congrArg (fun f => ls.filterMap f) (funext fun l => ?_)
  cases hr : record? l with
  | none => simp
  | some r =>
    rw [Option.filter_some, hcovered l r hr]

/-- A part of what a list is read as is what a part of the list is read as. -/
theorem exists_sublist_of_filterMap {f : α → Option β} {as : List α} {bs : List β}
    (h : List.Sublist bs (as.filterMap f)) :
    ∃ as', List.Sublist as' as ∧ as'.map f = bs.map some := by
  obtain ⟨cs, hcs, rfl⟩ := List.sublist_filterMap_iff.mp h
  refine ⟨cs.filter fun a => (f a).isSome, List.filter_sublist.trans hcs, ?_⟩
  induction cs with
  | nil => rfl
  | cons c cs ih =>
    have htail : List.Sublist cs as := (List.sublist_cons_self c cs).trans hcs
    cases hc : f c with
    | none => simpa [hc] using ih htail (htail.filterMap f)
    | some b => simpa [hc] using ih htail (htail.filterMap f)

end Lines

/-! ## 2. Times -/

/-- The minute made of some parts has them. -/
theorem of_minuteAt? {year : Int} {month day hour minute : UInt8} {t : DateTime}
    (h : minuteAt? year month day hour minute = some t) :
    t.date.year = year ∧ t.date.month = month.toNat ∧ t.date.day = day.toNat ∧
      t.time.second = 0 ∧ t.time.nanosecond = 0 := by
  unfold minuteAt? DateTime.ofParts? at h
  obtain ⟨date, hdate, h⟩ := Option.bind_eq_some_iff.mp h
  obtain ⟨time, htime, h⟩ := Option.bind_eq_some_iff.mp h
  cases h
  obtain ⟨hyear, hmonth, hday⟩ := Date.eq_of_ofYmd? hdate
  unfold TimeOfDay.ofParts? at htime
  split at htime
  · cases htime
    exact ⟨hyear, hmonth, hday, rfl, rfl⟩
  · cases htime

variable {range : DayRange} {year : Int}

/-- **The tests of a scan cover what the range covers**, once a month and a day are a date. -/
theorem DayRange.covers_eq {d : Date} {month day : Nat} (h : range.InYear d.year)
    (hmonth : d.month = month) (hday : d.day = day) :
    range.covers d = (range.hasStarted month day && !range.isPastEnd month day) := by
  subst hmonth hday
  rw [hasStarted_iff h, isPastEnd_iff h, Bool.not_not]
  rfl

/-- The days of one month are past the end from some day on, and the months of a year, too. -/
theorem DayRange.isPastEnd_of_le {m n d e : Nat} (h : m < n ∨ m = n ∧ d ≤ e)
    (hpast : range.isPastEnd m d = true) : range.isPastEnd n e = true := by
  simp only [isPastEnd, Bool.or_eq_true, Bool.and_eq_true, decide_eq_true_eq, beq_iff_eq]
    at hpast ⊢
  omega

/-! ## 3. Watering partitions -/

namespace WateringLine

/-- The run that a record of the partition of a year and zone stands for. -/
def runOf? (year : Int) (zone : UInt8) (record : List UInt8) : Option WateringRun :=
  (ofRecord? record).bind (run? year zone)

/-- A line comes no later than another in the order of months and days. -/
def NotAfter (k l : WateringLine) : Prop := k.month < l.month ∨ k.month = l.month ∧ k.day ≤ l.day

instance (k l : WateringLine) : Decidable (NotAfter k l) :=
  inferInstanceAs (Decidable (k.month < l.month ∨ k.month = l.month ∧ k.day ≤ l.day))

/-- A run has the date of its line, its zone, and starts on the minute. -/
theorem of_run? {zone : UInt8} {l : WateringLine} {r : WateringRun}
    (h : run? year zone l = some r) :
    r.zone = zone ∧ r.start.date.year = year ∧ r.start.date.month = l.month.toNat ∧
      r.start.date.day = l.day.toNat ∧ r.start.time.second = 0 ∧ r.start.time.nanosecond = 0 := by
  obtain ⟨t, ht, rfl⟩ := Option.map_eq_some_iff.mp h
  exact ⟨rfl, of_minuteAt? ht⟩

theorem covers_eq {zone : UInt8} (hr : range.InYear year) {l : WateringLine} {r : WateringRun}
    (h : run? year zone l = some r) :
    range.covers r.start.date =
      (range.hasStarted l.month.toNat l.day.toNat && !l.isPast range) := by
  obtain ⟨-, hyear, hmonth, hday, -⟩ := of_run? h
  exact DayRange.covers_eq (hyear ▸ hr) hmonth hday

/-- **What a scan finds for a zone** is covered by its range. -/
theorem of_found {zone : UInt8} (hr : range.InYear range.year) {bytes : List UInt8}
    {r : WateringRun} (h : r ∈ scanWatering zone range bytes) :
    range.covers r.start.date = true ∧ r.start.date.year = range.year ∧ r.zone = zone ∧
      r.start.time.second = 0 ∧ r.start.time.nanosecond = 0 := by
  rw [scanWatering_eq] at h
  obtain ⟨l, hpast, hstarted, hl⟩ := exists_of_mem_scanLines h
  obtain ⟨hzone, hyear, -, -, hsecond, hnano⟩ := of_run? hl
  refine ⟨?_, hyear, hzone, hsecond, hnano⟩
  rw [covers_eq hr hl, hstarted, hpast]
  rfl

/-- Lines that come no later than others are past the end before them. -/
theorem NotAfter.isPast {k l : WateringLine} (h : NotAfter k l) (hk : k.isPast range = true) :
    l.isPast range = true := by
  refine DayRange.isPastEnd_of_le ?_ hk
  rcases h with hlt | ⟨heq, hle⟩
  · exact Or.inl (UInt8.lt_iff_toNat_lt.mp hlt)
  · exact Or.inr ⟨congrArg UInt8.toNat heq, UInt8.le_iff_toNat_le.mp hle⟩

end WateringLine

/-- The records of a watering partition and the runs they stand for. -/
theorem filterMap_runOf? (zone : UInt8) (records : List (List UInt8)) :
    records.filterMap (WateringLine.runOf? year zone) =
      (records.filterMap WateringLine.ofRecord?).filterMap (WateringLine.run? year zone) := by
  rw [List.filterMap_filterMap]
  rfl

/-! ## 4. Sensor partitions -/

namespace SensorLine

/-- The reading that a record of the partition of a year and month stands for. -/
def readingOf? (year : Int) (month : UInt8) (record : List UInt8) : Option Reading :=
  (ofRecord? record).bind (reading? year month)

/-- A reading has the day of its line, the month of its partition, and a time on the minute. -/
theorem of_reading? {month : UInt8} {l : SensorLine} {r : Reading}
    (h : reading? year month l = some r) :
    r.time.date.year = year ∧ r.time.date.month = month.toNat ∧ r.time.date.day = l.day.toNat ∧
      r.time.time.second = 0 ∧ r.time.time.nanosecond = 0 := by
  obtain ⟨t, ht, rfl⟩ := Option.map_eq_some_iff.mp h
  exact of_minuteAt? ht

theorem covers_eq {month : UInt8} (hr : range.InYear year) {l : SensorLine} {r : Reading}
    (h : reading? year month l = some r) :
    range.covers r.time.date =
      (range.hasStarted month.toNat l.day.toNat && !l.isPast range month) := by
  obtain ⟨hyear, hmonth, hday, -⟩ := of_reading? h
  exact DayRange.covers_eq (hyear ▸ hr) hmonth hday

/-- **What a scan finds for a sensor** is covered by its range. -/
theorem of_found {month : UInt8} (hr : range.InYear range.year) {bytes : List UInt8} {r : Reading}
    (h : r ∈ scanReadings month range bytes) :
    range.covers r.time.date = true ∧ r.time.date.year = range.year ∧
      r.time.date.month = month.toNat ∧ r.time.time.second = 0 ∧ r.time.time.nanosecond = 0 := by
  rw [scanReadings_eq] at h
  obtain ⟨l, hpast, hstarted, hl⟩ := exists_of_mem_scanLines h
  obtain ⟨hyear, hmonth, -, hsecond, hnano⟩ := of_reading? hl
  refine ⟨?_, hyear, hmonth, hsecond, hnano⟩
  rw [covers_eq hr hl, hstarted, hpast]
  rfl

end SensorLine

/-- The records of a sensor partition and the readings they stand for. -/
theorem filterMap_readingOf? (month : UInt8) (records : List (List UInt8)) :
    records.filterMap (SensorLine.readingOf? year month) =
      (records.filterMap SensorLine.ofRecord?).filterMap (SensorLine.reading? year month) := by
  rw [List.filterMap_filterMap]
  rfl

/-! ## 5. Both -/

namespace LogTree

/-- **A scan of any file** finds what some of its data records stand for, in the order of the
file, all of it covered by the range; if the lines of the file are in order, it finds every
record that the range covers.  A directory in the place of a file has no records. -/
theorem scan_any_file (t : LogTree) (from_ to_ : Date) :
    let range := DayRange.spanning from_ to_
    (∀ (zone : UInt8) (bytes : List UInt8),
      t.open? (.watering range.year zone.toNat) = some bytes →
      ∃ runs, t.scanZone zone range = some runs ∧
        (∀ r ∈ runs, range.covers r.start.date = true ∧ r.start.date.year = range.year ∧
          r.zone = zone ∧ r.start.time.second = 0 ∧ r.start.time.nanosecond = 0) ∧
        (∃ records, List.Sublist records (Partition.dataRecords bytes) ∧
          records.map (WateringLine.runOf? range.year zone) = runs.map some) ∧
        (((Partition.dataRecords bytes).filterMap WateringLine.ofRecord?).Pairwise
            WateringLine.NotAfter →
          runs = ((Partition.dataRecords bytes).filterMap
            (WateringLine.runOf? range.year zone)).filter fun r => range.covers r.start.date)) ∧
    (∀ (kind : Sensor) (id : UInt16) (month : UInt8) (bytes : List UInt8),
      t.open? (.sensor kind month.toNat range.year id.toNat) = some bytes →
      ∃ readings, t.scanSensor kind id month range = some readings ∧
        (∀ r ∈ readings, range.covers r.time.date = true ∧ r.time.date.year = range.year ∧
          r.time.date.month = month.toNat ∧ r.time.time.second = 0 ∧
          r.time.time.nanosecond = 0) ∧
        (∃ records, List.Sublist records (Partition.dataRecords bytes) ∧
          records.map (SensorLine.readingOf? range.year month) = readings.map some) ∧
        (((Partition.dataRecords bytes).filterMap SensorLine.ofRecord?).Pairwise
            (fun k l => k.day ≤ l.day) →
          readings = ((Partition.dataRecords bytes).filterMap
            (SensorLine.readingOf? range.year month)).filter fun r =>
              range.covers r.time.date)) := by
  intro range
  have hyear : range.InYear range.year := by
    have hstart : range.year = from_.year := by
      rw [DayRange.year, DayRange.start_spanning]
    rw [hstart]
    exact DayRange.inYear_spanning from_ to_
  constructor
  · intro zone bytes hopen
    refine ⟨scanWatering zone range bytes, scanZone_of_open hopen,
      fun r hr => WateringLine.of_found hyear hr, ?_, fun hsorted => ?_⟩
    · refine exists_sublist_of_filterMap ?_
      rw [filterMap_runOf?, scanWatering_eq]
      exact scanLines_sublist _
    · rw [filterMap_runOf?, scanWatering_eq]
      exact scanLines_eq_filter (hsorted.imp fun hkl hk => hkl.isPast hk)
        fun l r hl => WateringLine.covers_eq hyear hl
  · intro kind id month bytes hopen
    refine ⟨scanReadings month range bytes, scanSensor_of_open hopen,
      fun r hr => SensorLine.of_found hyear hr, ?_, fun hsorted => ?_⟩
    · refine exists_sublist_of_filterMap ?_
      rw [filterMap_readingOf?, scanReadings_eq]
      exact scanLines_sublist _
    · rw [filterMap_readingOf?, scanReadings_eq]
      refine scanLines_eq_filter (hsorted.imp fun {k l} hkl hk => ?_)
        fun l r hl => SensorLine.covers_eq hyear hl
      exact DayRange.isPastEnd_of_le (Or.inr ⟨rfl, UInt8.le_iff_toNat_le.mp hkl⟩) hk

/-- A line that is no text, one without its last fields, a line of the first day, an empty one,
and a line of the thirteenth month. -/
def oddLines : List UInt8 :=
  Utf8.encode Partition.wateringHeader ++ [0xff, 44, 0xfe, 10] ++ Utf8.encode "1,1,5:0\n".toList ++
    Utf8.encode firstDay.text ++ [13, 10] ++ thirteenthMonth.bytes

/-- Readings of the first day and of a fortieth. -/
def fortiethDay : List UInt8 :=
  Utf8.encode (Partition.sensorHeader .temperature ++ "1,5:0,-7,extra\r40,8:30,3\n".toList)

/-- What there is to find is found between lines that are none. -/
theorem scan_any_file_of_oddLines :
    let range := DayRange.spanning .epoch .epoch
    let t := holding "watering.log" "wat-1970-01.log" oddLines
    let u := holding "tempr.log" "tm-01-70-007.log" fortiethDay
    t.open? (.watering range.year (1 : UInt8).toNat) = some oddLines ∧
    ((Partition.dataRecords oddLines).filterMap WateringLine.ofRecord?).Pairwise
      WateringLine.NotAfter ∧
    (t.scanZone 1 range).map (·.map WateringRun.duration) = some [30] ∧
    u.open? (.sensor .temperature (1 : UInt8).toNat range.year (7 : UInt16).toNat)
      = some fortiethDay ∧
    ((Partition.dataRecords fortiethDay).filterMap SensorLine.ofRecord?).Pairwise
      (fun k l => k.day ≤ l.day) ∧
    (u.scanSensor .temperature 7 1 range).map (·.map Reading.value) = some [-7] := by
  intro range t u
  have ht : t.open? (.watering range.year (1 : UInt8).toNat) = some oddLines := rfl
  have hlines : ((Partition.dataRecords oddLines).filterMap WateringLine.ofRecord?).Pairwise
      WateringLine.NotAfter := by decide +kernel
  have hu : u.open? (.sensor .temperature (1 : UInt8).toNat range.year (7 : UInt16).toNat)
      = some fortiethDay := by decide +kernel
  have hdays : ((Partition.dataRecords fortiethDay).filterMap SensorLine.ofRecord?).Pairwise
      (fun k l => k.day ≤ l.day) := by decide +kernel
  obtain ⟨runs, hruns, -, -, hall⟩ := (scan_any_file t .epoch .epoch).1 1 oddLines ht
  obtain ⟨readings, hreadings, -, -, hevery⟩ :=
    (scan_any_file u .epoch .epoch).2 .temperature 7 1 fortiethDay hu
  refine ⟨ht, hlines, ?_, hu, hdays, ?_⟩
  · rw [hruns, hall hlines]
    decide +kernel
  · rw [hreadings, hevery hdays]
    decide +kernel

end LogTree

end IrrigationLog
