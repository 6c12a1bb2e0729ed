/-
# Every line is one record, however lines end

A partition is written line by line, and each line must come back as one record and as itself: not
run together with the next one, not cut in two, not passed over, and with none of its numbers
changed, up to the ends of their types.  The two kinds of partition end their lines in different
ways.  That is a matter of taste only: a reader takes CR, LF and both together for the end of a
record and passes over empty records.

* **Single line ends.**  A line end of either kind divides the records before it from those after
  it (`recordsIn_append_mark`), so that one can be put for the other in any file (`Relined`).
* **Whole files.**  A byte order mark has no byte of a line end, so that it is found before and
  after (`Relined.dropMark`).

`Partition.lines_decoded` is the whole of it: for written files the lines, and for all bytes what
becomes of them when their line ends are changed.
-/
import IrrigationLog.Proofs.WholeLines

namespace IrrigationLog.Partition

open Text

/-! ## 1. Other line ends -/

/-- The bytes with LF for each CR LF. -/
def withLf : List UInt8 → List UInt8
  | [] => []
  | 13 :: 10 :: bytes => 10 :: withLf bytes
  | b :: bytes => b :: withLf bytes

/-- The bytes with CR LF for each LF. -/
def withCrlf (bytes : List UInt8) : List UInt8 :=
  bytes.flatMap fun b => if b = 10 then [13, 10] else [b]

/-- Two files that differ in some line ends: here LF stands where CR LF stands there. -/
inductive Relined : List UInt8 → List UInt8 → Prop where
  | nil : Relined [] []
  | same (b : UInt8) {as bs : List UInt8} : Relined as bs → Relined (b :: as) (b :: bs)
  | lf {as bs : List UInt8} : Relined as bs → Relined (13 :: 10 :: as) (10 :: bs)
  | crlf {as bs : List UInt8} : Relined as bs → Relined (10 :: as) (13 :: 10 :: bs)

theorem relined_withLf (bytes : List UInt8) : Relined bytes (withLf bytes) := by
  fun_induction withLf bytes with
  | case1 => exact .nil
  | case2 bytes ih => exact .lf ih
  | case3 b bytes _ ih => exact .same b ih

theorem relined_withCrlf (bytes : List UInt8) : Relined bytes (withCrlf bytes) := by
  induction bytes with
  | nil => exact .nil
  | cons b bytes ih =>
    rw [withCrlf, List.flatMap_cons]
    by_cases hb : b = 10
    · subst hb
      exact .crlf ih
    · rw [if_neg hb]
      exact .same b ih

namespace Relined

variable {as bs : List UInt8}

theorem symm (h : Relined as bs) : Relined bs as := by
  induction h with
  | nil => exact .nil
  | same b _ ih => exact .same b ih
  | lf _ ih => exact .crlf ih
  | crlf _ ih => exact .lf ih

end Relined

/-! ## 2. The same records -/

/-- CR and LF together end a record as LF alone does: between them there is an empty record, which
does not count. -/
theorem recordsIn_append_crlf (as bs : List UInt8) :
    recordsIn (as ++ 13 :: 10 :: bs) = recordsIn (as ++ 10 :: bs) := by
  have hcr : endsRecord 13 = true := by decide
  have hlf : endsRecord 10 = true := by decide
  have hempty := recordsIn_append_mark hlf [] bs
  rw [List.nil_append] at hempty
  rw [recordsIn_append_mark hcr, recordsIn_append_mark hlf, hempty]
  rfl

namespace Relined

variable {as bs : List UInt8} {b : UInt8}

/-- **Line ends may be exchanged**, whatever stands before them. -/
theorem recordsIn_append (h : Relined as bs) (front : List UInt8) :
    recordsIn (front ++ bs) = recordsIn (front ++ as) := by
  have hlf : endsRecord 10 = true := by decide
  induction h generalizing front with
  | nil => rfl
  | same b _ ih =>
    have hrest := ih (front ++ [b])
    rwa [List.append_assoc, List.append_assoc] at hrest
  | lf _ ih =>
    have hrest := ih []
    rw [List.nil_append, List.nil_append] at hrest
    rw [recordsIn_append_crlf, recordsIn_append_mark hlf, recordsIn_append_mark hlf, hrest]
  | crlf _ ih =>
    have hrest := ih []
    rw [List.nil_append, List.nil_append] at hrest
    rw [recordsIn_append_crlf, recordsIn_append_mark hlf, recordsIn_append_mark hlf, hrest]

/-- A byte that belongs to no line end stays where it is. -/
theorem exists_of_cons (h : Relined (b :: as) bs) (hb : endsRecord b = false) :
    ∃ cs, bs = b :: cs ∧ Relined as cs := by
  cases h with
  | same _ h => exact ⟨_, rfl, h⟩
  | lf _ => cases hb
  | crlf _ => cases hb

/-- A byte order mark stays at the start. -/
theorem exists_of_mark (h : Relined (0xef :: 0xbb :: 0xbf :: as) bs) :
    ∃ cs, bs = 0xef :: 0xbb :: 0xbf :: cs ∧ Relined as cs := by
  obtain ⟨second, rfl, hsecond⟩ := h.exists_of_cons (by decide)
  obtain ⟨third, rfl, hthird⟩ := hsecond.exists_of_cons (by decide)
  obtain ⟨cs, rfl, hrest⟩ := hthird.exists_of_cons (by decide)
  exact ⟨cs, rfl, hrest⟩

/-- **The byte order mark is dropped from both or from neither.** -/
theorem dropMark (h : Relined as bs) : Relined (dropMark as) (dropMark bs) := by
  by_cases hmark : ∃ rest, as = 0xef :: 0xbb :: 0xbf :: rest
  · obtain ⟨rest, rfl⟩ := hmark
    obtain ⟨cs, rfl, hrest⟩ := h.exists_of_mark
    exact hrest
  · have hother : ¬ ∃ rest, bs = 0xef :: 0xbb :: 0xbf :: rest := by
      rintro ⟨rest, rfl⟩
      obtain ⟨cs, rfl, -⟩ := h.symm.exists_of_mark
      exact hmark ⟨cs, rfl⟩
    rwa [dropMark_of_no_mark hmark, dropMark_of_no_mark hother]

/-- Files that differ in line ends have the same records after their header. -/
theorem dataRecords_eq (h : Relined as bs) : dataRecords bs = dataRecords as := by
  have hrecords := h.dropMark.recordsIn_append []
  unfold dataRecords records
  exact congrArg (List.drop 1) hrecords

end Relined

/-! ## 3. All lines -/

/-- **Partitions decode to what was encoded, and line ends do not matter.**  After the header each
record of a watering partition has the fields of the line at its place, and is read as that line,
for any lines; the same holds for a sensor partition with the header of any kind.  Any bytes have
the same records with LF for each CR LF, and with CR LF for each LF. -/
theorem lines_decoded :
    (∀ ls : List WateringLine,
      let file := Utf8.encode (wateringHeader ++ ls.flatMap WateringLine.text)
      (dataRecords file).map rowOf? = ls.map (fun l => some l.row) ∧
        (rows file).map WateringLine.ofRow? = ls.map some) ∧
    (∀ (kind : Sensor) (ls : List SensorLine),
      let file := Utf8.encode (sensorHeader kind ++ ls.flatMap SensorLine.text)
      (dataRecords file).map rowOf? = ls.map (fun l => some l.row) ∧
        (rows file).map SensorLine.ofRow? = ls.map some) ∧
    ∀ bytes : List UInt8,
      dataRecords (withLf bytes) = dataRecords bytes ∧
        dataRecords (withCrlf bytes) = dataRecords bytes := by
  refine ⟨fun ls => ⟨?_, ?_⟩, fun kind ls => ⟨?_, ?_⟩, fun bytes => ⟨?_, ?_⟩⟩
  · rw [dataRecords_watering, List.map_map]
    exact List.map_congr_left fun l _ => rowOf?_row l.isRow_row
  · rw [rows_watering, List.map_map]
    exact List.map_congr_left fun l _ => l.ofRow?_row
  · rw [dataRecords_sensor, List.map_map]
    exact List.map_congr_left fun l _ => rowOf?_row l.isRow_row
  · rw [rows_sensor, List.map_map]
    exact List.map_congr_left fun l _ => l.ofRow?_row
  · exact (relined_withLf bytes).dataRecords_eq
  · exact (relined_withCrlf bytes).dataRecords_eq

end IrrigationLog.Partition
