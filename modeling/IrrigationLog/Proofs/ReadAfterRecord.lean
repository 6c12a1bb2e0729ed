/-
# Reading what was just recorded

A recording that succeeds puts one line behind what its partition holds.  In a file of whole
lines that line is one more record (`Partition.records_append_row`), and a scan that reads the
file to its end finds the recorded thing after all that it found before.

There is one exception.  The first record of a file is its header, whatever it is, but a header
is written only into a file that is new.  A partition that is there and has no record is
`LogTree.headless`: the next line is taken for its header, and no scan finds it.  A full disk
leaves such a partition (`LogBook.headless_of_full_disk`), and so does anyone who makes an empty
file.

`LogBook.scan_recorded` is **what a scan finds after a recording**, for watering runs and for
readings.
-/
import IrrigationLog.Proofs.Calls
import IrrigationLog.Proofs.RecordScan
import IrrigationLog.Proofs.SortedScan

namespace IrrigationLog

/-! ## 1. One more row -/

namespace Partition

variable {row : List (List Char)} {ending : List Char} {bytes : List UInt8}

/-- No row starts with a byte order mark. -/
theorem dropMark_row (h : IsRow row) (ending : List Char) :
    dropMark (Utf8.encode (commaSeparated row ++ ending))
      = Utf8.encode (commaSeparated row ++ ending) := by
  obtain ⟨c, cs, hcons, hc⟩ : ∃ c cs, commaSeparated row = c :: cs ∧ c.toNat < 128 := by
    obtain ⟨hne, hfields⟩ := h
    cases row with
    | nil => exact absurd rfl hne
    | cons field fields =>
      obtain ⟨hfield, hchars⟩ := hfields field List.mem_cons_self
      cases field with
      | nil => exact absurd rfl hfield
      | cons c cs =>
        have hcode := toNat_of_isFieldChar (hchars c List.mem_cons_self)
        cases fields with
        | nil => exact ⟨c, cs, rfl, by omega⟩
        | cons next fields => exact ⟨c, _, rfl, by omega⟩
  have hmark := dropMark_encode_cons hc (cs ++ ending) []
  rw [List.append_nil] at hmark
  rw [hcons]
  exact hmark

/-- **One more row makes one more record**, whatever the file holds. -/
theorem records_append_row (h : Complete bytes) (hrow : IsRow row) (hend : IsLineEnd ending) :
    records (bytes ++ Utf8.encode (commaSeparated row ++ ending))
      = records bytes ++ [Utf8.encode (commaSeparated row)] := by
  have hline : recordsIn (Utf8.encode (commaSeparated row ++ ending))
      = [Utf8.encode (commaSeparated row)] := by
    have hfirst := recordsIn_line (commaSeparated_ne_nil hrow.1 hrow.2)
      (oneLine_commaSeparated hrow.2) hend []
    rwa [List.append_nil] at hfirst
  by_cases hne : bytes = []
  · subst hne
    show recordsIn (dropMark (Utf8.encode (commaSeparated row ++ ending))) = _
    rw [dropMark_row hrow, hline]
    rfl
  · rw [records_append h hne, hline]

/-- The new record is the header if there was none. -/
theorem dataRecords_append_row (h : Complete bytes) (hrow : IsRow row) (hend : IsLineEnd ending) :
    dataRecords (bytes ++ Utf8.encode (commaSeparated row ++ ending)) =
      if records bytes = [] then []
      else dataRecords bytes ++ [Utf8.encode (commaSeparated row)] := by
  unfold dataRecords
  rw [records_append_row h hrow hend]
  cases records bytes with
  | nil => rfl
  | cons header rest => rfl

end Partition

/-! ## 2. A scan that reads on -/

/-- A file of whole lines in which no scan ends early. -/
structure ReadsThrough {α : Type} (decode : List UInt8 → Option α) (past : α → Bool)
    (bytes : List UInt8) : Prop where
  complete : Partition.Complete bytes
  not_past : ∀ l ∈ (Partition.dataRecords bytes).filterMap decode, past l = false

/-- **A scan finds one more row** at the end of a file that it reads through. -/
theorem scanRecords_append_row {α β : Type} {decode : List UInt8 → Option α}
    {past started : α → Bool} {record? : α → Option β} {bytes : List UInt8}
    (h : ReadsThrough decode past bytes) {row : List (List Char)} (hrow : IsRow row)
    {ending : List Char} (hend : IsLineEnd ending) {l : α} {new : β}
    (hdecode : decode (Utf8.encode (commaSeparated row)) = some l) (hpast : past l = false)
    (hstarted : started l = true) (hrecord : record? l = some new) :
    scanRecords decode past started record? (bytes ++ Utf8.encode (commaSeparated row ++ ending)) =
      if Partition.records bytes = [] then []
      else scanRecords decode past started record? bytes ++ [new] := by
  have hany : ((Partition.dataRecords bytes).filterMap decode).any past = false :=
    List.any_eq_false.mpr fun k hk => by simp [h.not_past k hk]
  have hline : scanLines past started record? [l] = [new] := by
    rw [scanLines_cons, hpast, hstarted, hrecord]
    rfl
  unfold scanRecords
  rw [Partition.dataRecords_append_row h.complete hrow hend]
  split
  · rfl
  · rw [List.filterMap_append, List.filterMap_cons, hdecode, List.filterMap_nil, scanLines_append,
      hany, if_neg Bool.false_ne_true, hline]

section Partitions

variable {range : DayRange} {bytes : List UInt8}

/-- A covered run is found in a new partition. -/
theorem scanWatering_first_run {r : WateringRun} (hyear : range.InYear r.start.date.year)
    (hcovers : range.covers r.start.date = true) :
    scanWatering r.zone range
        (Utf8.encode Partition.wateringHeader ++ Utf8.encode (WateringLine.ofRun r).text)
      = [r.toMinute] := by
  have hfile := @scanWatering_encode _ _ r.zone [r] hyear (by simp) (by simp)
  simpa [hcovers, Utf8.encode_append] using hfile

/-- The line of a covered run is found behind all others. -/
theorem scanWatering_append_run {r : WateringRun} (hyear : range.InYear r.start.date.year)
    (hcovers : range.covers r.start.date = true)
    (h : ReadsThrough WateringLine.ofRecord? (WateringLine.isPast range) bytes) :
    scanWatering r.zone range (bytes ++ Utf8.encode (WateringLine.ofRun r).text) =
      if Partition.records bytes = [] then []
      else scanWatering r.zone range bytes ++ [r.toMinute] := by
  obtain ⟨hstart, hfinish⟩ := DayRange.covers_iff.mp hcovers
  rw [scanWatering_eq, scanWatering_eq]
  refine scanRecords_append_row h (WateringLine.isRow_row _) .crlf (WateringLine.ofRecord?_row _)
    ?_ ?_ (WateringLine.run?_ofRun hyear)
  · rw [WateringLine.isPast, WateringLine.isPastEnd_ofRun hyear, decide_eq_true hfinish]
    rfl
  · rw [WateringLine.hasStarted_ofRun hyear, decide_eq_true hstart]

/-- A covered reading is found in a new partition. -/
theorem scanReadings_first_reading {kind : Sensor} {r : Reading} {month : UInt8}
    (hmonth : month.toNat = r.time.date.month) (hyear : range.InYear r.time.date.year)
    (hcovers : range.covers r.time.date = true) :
    scanReadings month range
        (Utf8.encode (Partition.sensorHeader kind) ++ Utf8.encode (SensorLine.ofReading r).text)
      = [⟨r.time.toMinute, r.value⟩] := by
  have hfile := @scanReadings_encode _ _ kind month [r] hyear (by simpa using hmonth.symm) (by simp)
  simpa [hcovers, Utf8.encode_append] using hfile

/-- The line of a covered reading is found behind all others. -/
theorem scanReadings_append_reading {r : Reading} {month : UInt8}
    (hmonth : month.toNat = r.time.date.month) (hyear : range.InYear r.time.date.year)
    (hcovers : range.covers r.time.date = true)
    (h : ReadsThrough SensorLine.ofRecord? (SensorLine.isPast range month) bytes) :
    scanReadings month range (bytes ++ Utf8.encode (SensorLine.ofReading r).text) =
      if Partition.records bytes = [] then []
      else scanReadings month range bytes ++ [⟨r.time.toMinute, r.value⟩] := by
  obtain ⟨hstart, hfinish⟩ := DayRange.covers_iff.mp hcovers
  rw [scanReadings_eq, scanReadings_eq]
  refine scanRecords_append_row h (SensorLine.isRow_row _) .lf (SensorLine.ofRecord?_row _)
    ?_ ?_ (SensorLine.reading?_ofReading hyear hmonth)
  · rw [SensorLine.isPast, SensorLine.isPastEnd_ofReading hyear hmonth, decide_eq_true hfinish]
    rfl
  · rw [SensorLine.hasStarted_ofReading hyear hmonth, decide_eq_true hstart]

end Partitions

/-! ## 3. What a recording leaves -/

/-- Whether a partition is there and has no record that could be its header. -/
def LogTree.headless (t : LogTree) (q : Partition) : Bool :=
  (t.open? q).any fun bytes => (Partition.records bytes).isEmpty

namespace LogBook

variable {b : LogBook} {op : Operation} {e : Entry}

/-- **What a query opens after a recording**: what was there, or else the header, and the line. -/
theorem open?_step_of_ok (he : op.entryOf? b = some e) (hok : (b.step op).2.result = .ok ()) :
    (b.step op).1.logTree.open? e.partition =
      some ((b.logTree.open? e.partition).getD (Utf8.encode e.partition.header)
        ++ Utf8.encode e.line) := by
  obtain ⟨htree, hresult⟩ := step_of_entry he
  have hroot := (b.step_place op).1
  have hgrows := grows_of_append_ok (hresult.symm.trans hok)
  rw [← htree] at hgrows
  rw [open?_eq, open?_eq]
  change ((b.step op).1.tree.node? (e.partition.path (b.step op).1.root).names).map _
    = some (((b.tree.node? (e.partition.path b.root).names).map _).getD _ ++ _)
  rw [hroot]
  rcases hgrows.self with ⟨hold, hnew⟩ | ⟨bytes, hold, hnew⟩ <;> rw [hold, hnew] <;> rfl

/-- **A full disk leaves a new partition without a header.** -/
theorem headless_of_full_disk {f : WriteFault} (hf : b.fault = some f) (hroom : f.room = 0)
    (he : op.entryOf? b = some e) (habsent : b.logTree.open? e.partition = none)
    (hresult : (b.step op).2.result = .error (.output f.cause)) :
    (b.step op).1.logTree.headless e.partition = true := by
  obtain ⟨htree, hres⟩ := step_of_entry he
  have hroot := (b.step_place op).1
  have hfree : b.tree.find? (e.partition.path b.root).names = none := by
    rw [open?_eq, Option.map_eq_none_iff, Tree.node?_eq_none_iff] at habsent
    exact habsent
  have hempty : (b.append e.partition e.line).1.tree.node? (e.partition.path b.root).names
      = some (.file []) := by
    rw [hres] at hresult
    rcases b.append_cases e.partition e.line with
      ⟨-, heq⟩ | ⟨cause, -, heq⟩ | ⟨tree, heq, -⟩ | ⟨tree, part, cause, heq, hcuts, hgrows⟩ <;>
      rw [heq] at hresult ⊢
    · cases hresult
    · cases hresult
    · cases hresult
    · -- the disk takes nothing of what is to be written
      obtain ⟨f', hf', -, rfl⟩ := hcuts
      obtain rfl : f = f' := Option.some.inj (hf.symm.trans hf')
      rw [hroom, List.take_zero] at hgrows
      rcases hgrows.self with ⟨-, hnew⟩ | ⟨bytes, hold, -⟩
      · exact hnew
      · rw [Tree.node?_eq_none_iff.mpr hfree] at hold
        cases hold
  rw [LogTree.headless, open?_eq]
  change (((b.step op).1.tree.node? (e.partition.path (b.step op).1.root).names).map _).any _ = true
  rw [hroot, htree, hempty]
  rfl

/-! ## 4. What a scan finds -/

/-- A record for a scan comes after what the scan found before, unless it became a header. -/
theorem map_scan_step {β : Type} {scan : List UInt8 → List β} {new : β}
    (he : op.entryOf? b = some e) (hok : (b.step op).2.result = .ok ())
    (hnew : scan (Utf8.encode e.partition.header ++ Utf8.encode e.line) = [new])
    (hmore : ∀ bytes ∈ b.logTree.open? e.partition, scan (bytes ++ Utf8.encode e.line) =
      if Partition.records bytes = [] then [] else scan bytes ++ [new]) :
    ((b.step op).1.logTree.open? e.partition).map scan =
      if b.logTree.headless e.partition then some []
      else some (((b.logTree.open? e.partition).map scan).getD [] ++ [new]) := by
  rw [open?_step_of_ok he hok, LogTree.headless]
  cases hold : b.logTree.open? e.partition with
  | none => exact congrArg some hnew
  | some bytes =>
    rw [Option.getD_some, Option.map_some, hmore bytes hold]
    cases hrecords : Partition.records bytes with
    | nil => simp [hrecords]
    | cons header rest => simp [hrecords]

/-- **What a scan finds after a recording.** -/
theorem scan_recorded {range : DayRange} {from_ to_ : Date} (hrange : range = .spanning from_ to_) :
    (∀ r : WateringRun, (b.step (.watering r)).2.result = .ok () →
      range.covers r.start.date = true →
      (∀ bytes ∈ b.logTree.open? (.watering range.year r.zone.toNat),
        ReadsThrough WateringLine.ofRecord? (WateringLine.isPast range) bytes) →
      (b.step (.watering r)).1.logTree.scanZone r.zone range =
        if b.logTree.headless (.watering range.year r.zone.toNat) then some []
        else some ((b.logTree.scanZone r.zone range).getD [] ++ [r.toMinute])) ∧
    (∀ (kind : Sensor) (id : UInt16) (value : Int32) (month : UInt8),
      (b.step (.reading kind id value)).2.result = .ok () →
      range.covers b.now.date = true → month.toNat = b.now.date.month →
      (∀ bytes ∈ b.logTree.open? (.sensor kind month.toNat range.year id.toNat),
        ReadsThrough SensorLine.ofRecord? (SensorLine.isPast range month) bytes) →
      (b.step (.reading kind id value)).1.logTree.scanSensor kind id month range =
        if b.logTree.headless (.sensor kind month.toNat range.year id.toNat) then some []
        else some ((b.logTree.scanSensor kind id month range).getD []
          ++ [⟨b.now.toMinute, value⟩])) := by
  have hin : range.InYear range.year := by
    subst hrange
    rw [DayRange.year, DayRange.start_spanning]
    exact DayRange.inYear_spanning from_ to_
  constructor
  · intro r hok hcovers hread
    have hyear : r.start.date.year = range.year := hin.year_eq hcovers
    have hpart : Partition.watering range.year r.zone.toNat = (Entry.watering r).partition :=
      hyear ▸ rfl
    unfold LogTree.scanZone
    rw [hpart] at hread ⊢
    exact map_scan_step rfl hok (scanWatering_first_run (hyear ▸ hin) hcovers) fun bytes hb =>
      scanWatering_append_run (hyear ▸ hin) hcovers (hread bytes hb)
  · intro kind id value month hok hcovers hmonth hread
    have hyear : b.now.date.year = range.year := hin.year_eq hcovers
    have hpart : Partition.sensor kind month.toNat range.year id.toNat
        = (Entry.reading kind id ⟨b.now, value⟩).partition := by
      rw [hmonth, ← hyear]
      rfl
    unfold LogTree.scanSensor
    rw [hpart] at hread ⊢
    exact map_scan_step rfl hok (scanReadings_first_reading hmonth (hyear ▸ hin) hcovers)
      fun bytes hb => scanReadings_append_reading hmonth (hyear ▸ hin) hcovers (hread bytes hb)

/-- Ten minutes of zone 1 at the start of the count. -/
def shortRun : WateringRun :=
  { start := .epoch, zone := 1, duration := 10, schedule := 1, seasonal := 100, weather := 100 }

/-- A book on a new disk, after its first run found the disk full. -/
def afterFullDisk : LogBook :=
  let full : LogBook := { blank.setUp.1 with fault := some ⟨0, "No space left on device"⟩ }
  { (full.step (.watering shortRun)).1 with fault := none }

/-- On a disk that was full a run is recorded and not found; on one that was not, a reading is
found. -/
theorem scan_recorded_of_epoch :
    let range := DayRange.spanning .epoch .epoch
    (afterFullDisk.step (.watering shortRun)).2.result = .ok () ∧
    (blank.setUp.1.step (.reading .humidity 7 70)).2.result = .ok () ∧
    range.covers shortRun.start.date = true ∧ range.covers blank.setUp.1.now.date = true ∧
    (∀ bytes ∈ afterFullDisk.logTree.open? (.watering range.year shortRun.zone.toNat),
      ReadsThrough WateringLine.ofRecord? (WateringLine.isPast range) bytes) ∧
    (afterFullDisk.step (.watering shortRun)).1.logTree.scanZone shortRun.zone range = some [] ∧
    (blank.setUp.1.step (.reading .humidity 7 70)).1.logTree.scanSensor .humidity 7 1 range
      = some [⟨.epoch, 70⟩] := by
  intro range
  have hrun : (afterFullDisk.step (.watering shortRun)).2.result = .ok () := by rfl
  have hreading : (blank.setUp.1.step (.reading .humidity 7 70)).2.result = .ok () := by rfl
  have hcovers : range.covers shortRun.start.date = true := by decide +kernel
  have hnow : range.covers blank.setUp.1.now.date = true := by decide +kernel
  have hopen : afterFullDisk.logTree.open? (.watering range.year shortRun.zone.toNat)
      = some [] := by rfl
  have hread : ∀ bytes ∈ afterFullDisk.logTree.open? (.watering range.year shortRun.zone.toNat),
      ReadsThrough WateringLine.ofRecord? (WateringLine.isPast range) bytes := by
    rw [hopen]
    rintro bytes ⟨⟩
    exact ⟨by decide +kernel, fun l hl => by cases hl⟩
  have habsent : blank.setUp.1.logTree.open?
      (.sensor .humidity (1 : UInt8).toNat range.year (7 : UInt16).toNat) = none := by rfl
  have hscan := (@scan_recorded afterFullDisk _ _ _ rfl).1 shortRun hrun hcovers hread
  have hpoints := (@scan_recorded blank.setUp.1 _ _ _ rfl).2 .humidity 7 70 1 hreading hnow rfl
    (by rw [habsent]; simp)
  refine ⟨hrun, hreading, hcovers, hnow, hread, ?_, ?_⟩
  · rw [hscan, LogTree.headless, hopen]
    rfl
  · rw [hpoints, LogTree.headless, LogTree.scanSensor, habsent]
    rfl

end LogBook

end IrrigationLog
