/-
# Scans record by record

Each record of a partition is read by itself, as a line or as nothing.  A scan of a watering
partition and one of a sensor partition differ in how a record is read, in what counts as past
and as started, and in what a line stands for; they are one scan with four parameters
(`scanRecords`).

* `scanLines_append` is **all that a scan does with two lists of lines**: it goes on to the second
  unless a line of the first is past the end.
* `scanRecords_insert` is **what one more line without a record of its own does to a scan**: either
  nothing, or it is past the end and the scan is over when it gets there.
-/
import IrrigationLog.Proofs.WholeLines
import IrrigationLog.Query.Scan

namespace IrrigationLog

/-! ## 1. Lines -/

section Lines

variable {α β : Type} {past started : α → Bool} {record? : α → Option β}

@[simp]
theorem scanLines_nil : scanLines past started record? [] = [] := rfl

theorem scanLines_cons (l : α) (ls : List α) :
    scanLines past started record? (l :: ls) =
      if past l then []
      else (if started l then (record? l).toList else []) ++ scanLines past started record? ls := by
  unfold scanLines
  cases hpast : past l with
  | true =>
    rw [List.takeWhile_cons_of_neg (by simp [hpast]), if_pos rfl]
    rfl
  | false =>
    rw [List.takeWhile_cons_of_pos (by simp [hpast]), if_neg Bool.false_ne_true]
    cases hstarted : started l with
    | false => simp [hstarted]
    | true => cases hrecord : record? l <;> simp [hstarted, hrecord]

/-- **A scan of two lists of lines** goes on to the second one unless it ended in the first. -/
theorem scanLines_append (as bs : List α) :
    scanLines past started record? (as ++ bs) =
      scanLines past started record? as ++
        if as.any past then [] else scanLines past started record? bs := by
  induction as with
  | nil => rfl
  | cons a as ih =>
    rw [List.cons_append, scanLines_cons, scanLines_cons, ih, List.any_cons]
    cases hpast : past a with
    | true => rfl
    | false =>
      rw [if_neg Bool.false_ne_true, if_neg Bool.false_ne_true, Bool.false_or, List.append_assoc]

/-- A line without a record adds nothing to a scan; what it can do is to end it. -/
theorem scanLines_insert {o : Option α} (h : o.bind record? = none) (as bs : List α) :
    scanLines past started record? (as ++ o.toList ++ bs) =
      if o.any past then scanLines past started record? as
      else scanLines past started record? (as ++ bs) := by
  have hline : scanLines past started record? o.toList = [] := by
    cases o with
    | none => rfl
    | some l =>
      have hnone : record? l = none := h
      rw [Option.toList_some, scanLines_cons, hnone]
      cases past l <;> cases started l <;> rfl
  have hany : o.toList.any past = o.any past := by cases o <;> simp
  rw [List.append_assoc, scanLines_append, scanLines_append, hline, hany, scanLines_append as bs]
  cases o.any past with
  | true => simp
  | false => simp

end Lines

/-! ## 2. Records that hold a line -/

namespace Partition

/-- No bytes at all are a text without commas, and so a row of one empty field. -/
theorem rowOf?_nil : rowOf? [] = some [[]] := by
  have hnil : ([] : List UInt8) = Utf8.encode [] := rfl
  rw [rowOf?, hnil, Utf8.decode?_encode]
  rfl

end Partition

/-- The watering line that a record holds, if its fields can be read. -/
def WateringLine.ofRecord? (record : List UInt8) : Option WateringLine :=
  (Partition.rowOf? record).bind ofRow?

theorem WateringLine.ofRecord?_nil : ofRecord? [] = none := by
  rw [ofRecord?, Partition.rowOf?_nil]
  rfl

/-- A written watering line is read back. -/
theorem WateringLine.ofRecord?_row (l : WateringLine) :
    ofRecord? (Utf8.encode (commaSeparated l.row)) = some l := by
  rw [ofRecord?, Partition.rowOf?_row l.isRow_row]
  exact l.ofRow?_row

/-- The sensor line that a record holds, if its fields can be read. -/
def SensorLine.ofRecord? (record : List UInt8) : Option SensorLine :=
  (Partition.rowOf? record).bind ofRow?

theorem SensorLine.ofRecord?_nil : ofRecord? [] = none := by
  rw [ofRecord?, Partition.rowOf?_nil]
  rfl

/-- A written sensor line is read back. -/
theorem SensorLine.ofRecord?_row (l : SensorLine) :
    ofRecord? (Utf8.encode (commaSeparated l.row)) = some l := by
  rw [ofRecord?, Partition.rowOf?_row l.isRow_row]
  exact l.ofRow?_row

/-- A line of a watering partition comes later than the end of a range. -/
def WateringLine.isPast (range : DayRange) (l : WateringLine) : Bool :=
  range.isPastEnd l.month.toNat l.day.toNat

/-- A line of a sensor partition of a month comes later than the end of a range. -/
def SensorLine.isPast (range : DayRange) (month : UInt8) (l : SensorLine) : Bool :=
  range.isPastEnd month.toNat l.day.toNat

/-! ## 3. Files -/

/-- A scan of a file in which each record is read by itself. -/
def scanRecords {α β : Type} (decode : List UInt8 → Option α) (past started : α → Bool)
    (record? : α → Option β) (bytes : List UInt8) : List β :=
  scanLines past started record? ((Partition.dataRecords bytes).filterMap decode)

/-- The scan of a watering partition. -/
theorem scanWatering_eq (zone : UInt8) (range : DayRange) (bytes : List UInt8) :
    scanWatering zone range bytes =
      scanRecords WateringLine.ofRecord? (WateringLine.isPast range)
        (fun l => range.hasStarted l.month.toNat l.day.toNat)
        (WateringLine.run? range.year zone) bytes := by
  unfold scanWatering scanRecords Partition.rows
  rw [List.filterMap_filterMap]
  rfl

/-- The scan of a sensor partition. -/
theorem scanReadings_eq (month : UInt8) (range : DayRange) (bytes : List UInt8) :
    scanReadings month range bytes =
      scanRecords SensorLine.ofRecord? (SensorLine.isPast range month)
        (fun l => range.hasStarted month.toNat l.day.toNat)
        (SensorLine.reading? range.year month) bytes := by
  unfold scanReadings scanRecords Partition.rows
  rw [List.filterMap_filterMap]
  rfl

/-- **A scan of a file with one more line in it**, when the line stands for no record. -/
theorem scanRecords_insert {α β : Type} {decode : List UInt8 → Option α} {past started : α → Bool}
    {record? : α → Option β} (hempty : decode [] = none) {bytes : List UInt8}
    (h : Partition.Complete bytes) (hheader : Partition.records bytes ≠ [])
    (line : Partition.FileLine)
    (hline : (decode line.content).bind record? = none) (after : List UInt8) :
    scanRecords decode past started record? (bytes ++ line.bytes ++ after) =
      if (decode line.content).any past then scanRecords decode past started record? bytes
      else scanRecords decode past started record? (bytes ++ after) := by
  unfold scanRecords
  rw [Partition.decoded_insert hempty h hheader, scanLines_insert hline,
    Partition.dataRecords_append h hheader after, List.filterMap_append]

end IrrigationLog
