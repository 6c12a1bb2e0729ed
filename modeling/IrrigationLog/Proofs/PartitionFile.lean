/-
# A file of lines read back

A partition is written line by line and read as bytes.  What is read is what was written: the
rows of the file are the rows of its lines, in order, and each of them is again the line it
came from.

Three layers stand between the two.

* **Bytes.**  A line feed and a carriage return are bytes of no other character
  (`mem_utf8EncodeChar`), so the bytes of a file are cut where its lines end
  (`Partition.cutAt_encode_lines`); the empty record between CR and LF does not count.
* **Fields.**  What is written into a field has no comma and no blank (`FieldText`), so a row
  is cut at its commas into the fields it was made of (`Partition.rowOf?_row`).
* **Numbers.**  A field is read as the number it was written from (`WateringLine.ofRow?_row`,
  `SensorLine.ofRow?_row`).

Hence `Partition.lines_watering` and `Partition.lines_sensor`.
-/
import IrrigationLog.Partition.Key
import IrrigationLog.Partition.Line
import IrrigationLog.Partition.Rows

namespace IrrigationLog

open Text

/-! ## 1. Bytes of a text -/

namespace Utf8

/-- A byte below 128 is the code of its character. -/
theorem mem_utf8EncodeChar {c : Char} {b : UInt8} (h : b ∈ String.utf8EncodeChar c)
    (hb : b.toNat < 128) : b.toNat = c.toNat := by
  have hc : c.val.toNat = c.toNat := rfl
  unfold String.utf8EncodeChar at h
  dsimp only at h
  split at h
  · simp only [List.mem_singleton] at h
    subst h
    simp only [UInt8.toNat_ofNat']
    omega
  split at h
  · simp only [List.mem_cons, List.not_mem_nil, or_false] at h
    rcases h with rfl | rfl <;> simp only [UInt8.toNat_ofNat'] at hb <;> omega
  split at h
  · simp only [List.mem_cons, List.not_mem_nil, or_false] at h
    rcases h with rfl | rfl | rfl <;> simp only [UInt8.toNat_ofNat'] at hb <;> omega
  · simp only [List.mem_cons, List.not_mem_nil, or_false] at h
    rcases h with rfl | rfl | rfl | rfl <;> simp only [UInt8.toNat_ofNat'] at hb <;> omega

/-- A text without characters has no bytes, and only that. -/
theorem encode_eq_nil_iff {cs : List Char} : encode cs = [] ↔ cs = [] := by
  constructor
  · intro h
    cases cs with
    | nil => rfl
    | cons c cs =>
      have hc : String.utf8EncodeChar c = [] := (List.append_eq_nil_iff.mp h).1
      exact absurd hc String.utf8EncodeChar_ne_nil
  · rintro rfl
    rfl

/-- A byte below 128 in a text is the code of one of its characters. -/
theorem exists_of_mem_encode {cs : List Char} {b : UInt8} (h : b ∈ encode cs)
    (hb : b.toNat < 128) : ∃ c ∈ cs, c.toNat = b.toNat := by
  obtain ⟨c, hc, hbc⟩ := List.mem_flatMap.mp h
  exact ⟨c, hc, (mem_utf8EncodeChar hbc hb).symm⟩

end Utf8

/-! ## 2. Lines -/

/-- A text on one line. -/
def OneLine (cs : List Char) : Prop := ∀ c ∈ cs, c ≠ '\n' ∧ c ≠ '\r'

instance (cs : List Char) : Decidable (OneLine cs) :=
  List.decidableBAll (fun c => c ≠ '\n' ∧ c ≠ '\r') cs

/-- The two ways to end a line. -/
inductive IsLineEnd : List Char → Prop where
  | lf : IsLineEnd ['\n']
  | crlf : IsLineEnd ['\r', '\n']

namespace Partition

/-- No byte of a text on one line ends a record. -/
theorem endsRecord_of_mem_encode {cs : List Char} (h : OneLine cs) :
    ∀ b ∈ Utf8.encode cs, endsRecord b = false := by
  intro b hb
  cases hend : endsRecord b with
  | false => rfl
  | true =>
    simp only [endsRecord, Bool.or_eq_true, beq_iff_eq] at hend
    rcases hend with rfl | rfl
    · obtain ⟨c, hc, hcode⟩ := Utf8.exists_of_mem_encode hb (by decide)
      have hlf : c = '\n' := Char.toNat_inj.mp hcode
      exact absurd hlf (h c hc).1
    · obtain ⟨c, hc, hcode⟩ := Utf8.exists_of_mem_encode hb (by decide)
      have hcr : c = '\r' := Char.toNat_inj.mp hcode
      exact absurd hcr (h c hc).2

/-- The records in some bytes, whether or not a byte order mark comes first. -/
def recordsIn (bytes : List UInt8) : List (List UInt8) :=
  (cutAt endsRecord bytes).filter fun r => !r.isEmpty

/-- A record that is not empty counts. -/
theorem filter_full_cons {r : List UInt8} (h : r ≠ []) (rs : List (List UInt8)) :
    (r :: rs).filter (fun r => !r.isEmpty) = r :: rs.filter fun r => !r.isEmpty := by
  cases r with
  | nil => exact absurd rfl h
  | cons b bs => rfl

/-- The first line is the first record. -/
theorem recordsIn_line {cs ending : List Char} (hne : cs ≠ []) (hcs : OneLine cs)
    (hend : IsLineEnd ending) (bytes : List UInt8) :
    recordsIn (Utf8.encode (cs ++ ending) ++ bytes) = Utf8.encode cs :: recordsIn bytes := by
  have hfull : Utf8.encode cs ≠ [] := fun hb => hne (Utf8.encode_eq_nil_iff.mp hb)
  unfold recordsIn
  rw [Utf8.encode_append, List.append_assoc]
  cases hend with
  | lf =>
    show (cutAt endsRecord (Utf8.encode cs ++ 10 :: bytes)).filter _ = _
    rw [cutAt_append_cons bytes (endsRecord_of_mem_encode hcs) (by decide),
      filter_full_cons hfull]
  | crlf =>
    show (cutAt endsRecord (Utf8.encode cs ++ 13 :: 10 :: bytes)).filter _ = _
    rw [cutAt_append_cons (10 :: bytes) (endsRecord_of_mem_encode hcs) (by decide),
      filter_full_cons hfull]
    show Utf8.encode cs :: (cutAt endsRecord ([] ++ 10 :: bytes)).filter _ = _
    rw [@cutAt_append_cons _ endsRecord [] 10 bytes (by simp) (by decide)]
    rfl

/-- **The bytes of some lines are cut where the lines end.**  Lines need not end alike. -/
theorem recordsIn_lines {lines : List (List Char × List Char)}
    (h : ∀ l ∈ lines, l.1 ≠ [] ∧ OneLine l.1 ∧ IsLineEnd l.2) :
    recordsIn (Utf8.encode (lines.flatMap fun l => l.1 ++ l.2)) =
      lines.map fun l => Utf8.encode l.1 := by
  induction lines with
  | nil => rfl
  | cons l lines ih =>
    obtain ⟨hne, hone, hend⟩ := h l List.mem_cons_self
    rw [List.flatMap_cons, Utf8.encode_append, recordsIn_line hne hone hend, List.map_cons,
      ih fun k hk => h k (List.mem_cons_of_mem _ hk)]

/-- A byte order mark is no start of a text whose first character has a code below 128. -/
theorem dropMark_encode_cons {c : Char} (hc : c.toNat < 128) (cs : List Char)
    (bytes : List UInt8) :
    dropMark (Utf8.encode (c :: cs) ++ bytes) = Utf8.encode (c :: cs) ++ bytes := by
  have hfirst : String.utf8EncodeChar c = [UInt8.ofNat c.toNat] := by
    unfold String.utf8EncodeChar
    exact if_pos (show c.toNat ≤ 127 by omega)
  have hcons : Utf8.encode (c :: cs) = UInt8.ofNat c.toNat :: Utf8.encode cs := by
    show String.utf8EncodeChar c ++ Utf8.encode cs = _
    rw [hfirst]
    rfl
  have hne : UInt8.ofNat c.toNat ≠ 0xef := by
    intro he
    have := congrArg UInt8.toNat he
    simp only [UInt8.toNat_ofNat', UInt8.reduceToNat] at this
    omega
  rw [hcons, List.cons_append]
  unfold dropMark
  split
  · rename_i heq
    exact absurd (List.cons.inj heq).1 hne
  · rfl

end Partition

/-! ## 3. Fields -/

/-- The characters that numbers and clock times are written with. -/
def isFieldChar (c : Char) : Bool := c.isDigit || c == '-' || c == ':'

/-- What is written into a field. -/
def FieldText (cs : List Char) : Prop := cs ≠ [] ∧ ∀ c ∈ cs, isFieldChar c = true

theorem isFieldChar_of_isDigit {c : Char} (h : c.isDigit = true) : isFieldChar c = true := by
  simp [isFieldChar, h]

/-- The codes of the characters of a field. -/
theorem toNat_of_isFieldChar {c : Char} (h : isFieldChar c = true) :
    45 ≤ c.toNat ∧ c.toNat ≤ 58 := by
  simp only [isFieldChar, Bool.or_eq_true, beq_iff_eq] at h
  rcases h with (h | rfl) | rfl
  · have := toNat_of_isDigit h
    omega
  · decide
  · decide

/-- A character of a field is no blank. -/
theorem isBlank_of_isFieldChar {c : Char} (h : isFieldChar c = true) : isBlank c = false := by
  have hcode := toNat_of_isFieldChar h
  cases hb : isBlank c with
  | false => rfl
  | true =>
    have := toNat_of_isBlank hb
    omega

theorem FieldText.decimal (n : Nat) : FieldText (decimal n) :=
  ⟨decimal_ne_nil n, fun _ h => isFieldChar_of_isDigit (isDigit_of_mem_decimal h)⟩

theorem FieldText.signed : ∀ i : Int, FieldText (signed i)
  | .ofNat n => FieldText.decimal n
  | .negSucc n => by
    refine ⟨by simp [Text.signed], fun c hc => ?_⟩
    rcases List.mem_cons.mp hc with rfl | hc
    · decide
    · exact (FieldText.decimal (n + 1)).2 c hc

theorem FieldText.clockField (hour minute : UInt8) : FieldText (clockField hour minute) := by
  refine ⟨by simp [IrrigationLog.clockField], fun c hc => ?_⟩
  rcases List.mem_append.mp hc with hc | hc
  · exact (FieldText.decimal _).2 c hc
  · rcases List.mem_cons.mp hc with rfl | hc
    · decide
    · exact (FieldText.decimal _).2 c hc

/-- A field has no blanks to let go. -/
theorem FieldText.trim_eq {cs : List Char} (h : FieldText cs) : trim cs = cs :=
  trim_eq_self (fun c hc => isBlank_of_isFieldChar (h.2 c (List.mem_of_mem_head? hc)))
    (fun c hc => isBlank_of_isFieldChar (h.2 c (List.mem_of_mem_getLast? hc)))

theorem FieldText.comma_not_mem {cs : List Char} (h : FieldText cs) :
    ∀ c ∈ cs, (c == ',') = false := by
  intro c hc
  have := toNat_of_isFieldChar (h.2 c hc)
  rw [beq_eq_false_iff_ne]
  rintro rfl
  revert this
  decide

/-- Fields with commas between them stand on one line. -/
theorem oneLine_commaSeparated {fields : List (List Char)} (h : ∀ f ∈ fields, FieldText f) :
    OneLine (commaSeparated fields) := by
  have hchar : ∀ f ∈ fields, OneLine f := by
    intro f hf c hc
    have := toNat_of_isFieldChar ((h f hf).2 c hc)
    constructor <;> rintro rfl <;> revert this <;> decide
  clear h
  fun_induction commaSeparated fields with
  | case1 => simp [OneLine]
  | case2 field => exact hchar field List.mem_cons_self
  | case3 field fields hne ih =>
    intro c hc
    rcases List.mem_append.mp hc with hc | hc
    · exact hchar field List.mem_cons_self c hc
    rcases List.mem_cons.mp hc with rfl | hc
    · decide
    · exact ih (fun f hf => hchar f (List.mem_cons_of_mem _ hf)) c hc

theorem commaSeparated_ne_nil {fields : List (List Char)} (hne : fields ≠ [])
    (h : ∀ f ∈ fields, FieldText f) : commaSeparated fields ≠ [] := by
  fun_induction commaSeparated fields with
  | case1 => exact absurd rfl hne
  | case2 field => exact (h field List.mem_cons_self).1
  | case3 field fields _ _ => simp

/-- A row is cut at its commas into the fields that it was made of. -/
theorem cutAt_commaSeparated {fields : List (List Char)} (hne : fields ≠ [])
    (h : ∀ f ∈ fields, FieldText f) : cutAt (· == ',') (commaSeparated fields) = fields := by
  fun_induction commaSeparated fields with
  | case1 => exact absurd rfl hne
  | case2 field => exact cutAt_eq_singleton (h field List.mem_cons_self).comma_not_mem
  | case3 field fields hmore ih =>
    rw [cutAt_append_cons _ (h field List.mem_cons_self).comma_not_mem (by decide),
      ih (fun e => hmore e) fun f hf => h f (List.mem_cons_of_mem _ hf)]

/-- What a writer puts into a row: at least one field, and no other characters than numbers and
clock times have. -/
def IsRow (row : List (List Char)) : Prop := row ≠ [] ∧ ∀ f ∈ row, FieldText f

/-- **A row is read back.** -/
theorem Partition.rowOf?_row {row : List (List Char)} (h : IsRow row) :
    rowOf? (Utf8.encode (commaSeparated row)) = some row := by
  unfold rowOf?
  rw [Utf8.decode?_encode, Option.map_some, cutAt_commaSeparated h.1 h.2]
  have htrim : row.map trim = row.map id :=
    List.map_congr_left fun f hf => (h.2 f hf).trim_eq
  rw [htrim, List.map_id]

/-! ## 4. Numbers -/

/-- A text is cut at the first mark. -/
theorem Text.cutOnce_append_cons {m : Char} {as : List Char} (bs : List Char)
    (h : ∀ a ∈ as, (a == m) = false) : cutOnce m (as ++ m :: bs) = some (as, bs) := by
  induction as with
  | nil => simp [cutOnce]
  | cons a as ih =>
    rw [List.cons_append, cutOnce, h a List.mem_cons_self,
      ih fun b hb => h b (List.mem_cons_of_mem _ hb)]
    rfl

/-- A mark that is no digit does not occur in a numeral. -/
theorem Text.beq_of_mem_decimal {m : Char} (hm : m.isDigit = false) {n : Nat} :
    ∀ c ∈ decimal n, (c == m) = false := by
  intro c hc
  rw [beq_eq_false_iff_ne]
  rintro rfl
  rw [isDigit_of_mem_decimal hc] at hm
  cases hm

/-- A clock time is read back. -/
theorem readClock?_clockField (hour minute : UInt8) :
    readClock? (clockField hour minute) = some (hour, minute) := by
  have hcut : cutOnce ':' (clockField hour minute)
      = some (decimal hour.toNat, decimal minute.toNat) :=
    cutOnce_append_cons _ (beq_of_mem_decimal rfl)
  unfold readClock?
  rw [hcut, Option.bind_eq_bind, Option.bind_some]
  dsimp only
  rw [(FieldText.decimal _).trim_eq, (FieldText.decimal _).trim_eq, readUInt8?_decimal,
    readUInt8?_decimal]
  rfl

/-- **A watering line is read back.** -/
theorem WateringLine.ofRow?_row (l : WateringLine) : ofRow? l.row = some l := by
  simp [ofRow?, row, readUInt8?_decimal, readUInt16?_decimal, readInt32?_signed,
    readClock?_clockField]

theorem WateringLine.isRow_row (l : WateringLine) : IsRow l.row := by
  refine ⟨by simp [row], ?_⟩
  simp [row, FieldText.decimal, FieldText.signed, FieldText.clockField]

/-- **A sensor line is read back.** -/
theorem SensorLine.ofRow?_row (l : SensorLine) : ofRow? l.row = some l := by
  simp [ofRow?, row, readUInt8?_decimal, readInt32?_signed, readClock?_clockField]

theorem SensorLine.isRow_row (l : SensorLine) : IsRow l.row := by
  refine ⟨by simp [row], ?_⟩
  simp [row, FieldText.decimal, FieldText.signed, FieldText.clockField]

/-! ## 5. Files -/

/-- What was written one by one is read back one by one. -/
theorem filterMap_map_eq_map {α β γ : Type} {f : α → β} {g : β → Option γ} {k : α → γ}
    {as : List α} (h : ∀ a ∈ as, g (f a) = some (k a)) : (as.map f).filterMap g = as.map k := by
  induction as with
  | nil => rfl
  | cons a as ih =>
    rw [List.map_cons, List.filterMap_cons, h a List.mem_cons_self]
    exact congrArg _ (ih fun b hb => h b (List.mem_cons_of_mem _ hb))

theorem filterMap_map_eq_self {α β : Type} {f : α → β} {g : β → Option α} {as : List α}
    (h : ∀ a ∈ as, g (f a) = some a) : (as.map f).filterMap g = as := by
  rw [@filterMap_map_eq_map _ _ _ f g id as h, List.map_id]

namespace Partition

/-- **The records of a file are the rows that were written after its title**, each one of them. -/
theorem dataRecords_encode {c : Char} {title : List Char} {titleEnd lineEnd : List Char}
    (hc : c.toNat < 128) (htitle : OneLine (c :: title)) (hte : IsLineEnd titleEnd)
    (hle : IsLineEnd lineEnd) {rs : List (List (List Char))} (hrs : ∀ r ∈ rs, IsRow r) :
    dataRecords (Utf8.encode ((c :: title) ++ titleEnd ++ rs.flatMap fun r =>
      commaSeparated r ++ lineEnd)) = rs.map fun r => Utf8.encode (commaSeparated r) := by
  have hlines : ∀ l ∈ (c :: title, titleEnd) :: rs.map fun r => (commaSeparated r, lineEnd),
      l.1 ≠ [] ∧ OneLine l.1 ∧ IsLineEnd l.2 := by
    intro l hl
    rcases List.mem_cons.mp hl with rfl | hl
    · exact ⟨by simp, htitle, hte⟩
    · obtain ⟨r, hr, rfl⟩ := List.mem_map.mp hl
      have h := hrs r hr
      exact ⟨commaSeparated_ne_nil h.1 h.2, oneLine_commaSeparated h.2, hle⟩
  have hrecords := recordsIn_lines hlines
  rw [List.flatMap_cons, List.flatMap_map, List.map_cons, List.map_map] at hrecords
  have hmark : dropMark (Utf8.encode ((c :: title) ++ titleEnd ++ rs.flatMap fun r =>
      commaSeparated r ++ lineEnd)) = Utf8.encode ((c :: title) ++ titleEnd ++ rs.flatMap fun r =>
        commaSeparated r ++ lineEnd) := by
    rw [List.append_assoc, Utf8.encode_append]
    exact dropMark_encode_cons hc title _
  unfold dataRecords records
  rw [hmark]
  show (recordsIn _).drop 1 = _
  rw [hrecords, List.drop_one, List.tail_cons]
  rfl

/-- The records of a watering partition are its lines. -/
theorem dataRecords_watering (ls : List WateringLine) :
    dataRecords (Utf8.encode (wateringHeader ++ ls.flatMap WateringLine.text)) =
      ls.map fun l => Utf8.encode (commaSeparated l.row) := by
  have hfile : wateringHeader ++ ls.flatMap WateringLine.text
      = ('M' :: "onth,Day,Time,Run time(min),ScheduleID,Adjustment,WUAdjustment".toList)
        ++ ['\r', '\n'] ++ (ls.map WateringLine.row).flatMap fun r =>
          commaSeparated r ++ ['\r', '\n'] := by
    rw [List.flatMap_map]
    rfl
  rw [hfile, dataRecords_encode (by decide) (by decide) .crlf .crlf, List.map_map]
  · rfl
  · intro r hr
    obtain ⟨l, -, rfl⟩ := List.mem_map.mp hr
    exact l.isRow_row

/-- The records of a sensor partition are its lines. -/
theorem dataRecords_sensor (kind : Sensor) (ls : List SensorLine) :
    dataRecords (Utf8.encode (sensorHeader kind ++ ls.flatMap SensorLine.text)) =
      ls.map fun l => Utf8.encode (commaSeparated l.row) := by
  have hfile : sensorHeader kind ++ ls.flatMap SensorLine.text
      = ('D' :: ("ay,Time,".toList ++ kind.unit.toList)) ++ ['\n']
        ++ (ls.map SensorLine.row).flatMap fun r => commaSeparated r ++ ['\n'] := by
    rw [List.flatMap_map]
    rfl
  have htitle : OneLine ('D' :: ("ay,Time,".toList ++ kind.unit.toList)) := by
    cases kind <;> decide
  rw [hfile, dataRecords_encode (by decide) htitle .lf .lf, List.map_map]
  · rfl
  · intro r hr
    obtain ⟨l, -, rfl⟩ := List.mem_map.mp hr
    exact l.isRow_row

/-- The rows of a watering partition are the written ones. -/
theorem rows_watering (ls : List WateringLine) :
    rows (Utf8.encode (wateringHeader ++ ls.flatMap WateringLine.text)) =
      ls.map WateringLine.row := by
  rw [rows, dataRecords_watering]
  exact filterMap_map_eq_map fun l _ => rowOf?_row l.isRow_row

/-- The rows of a sensor partition are the written ones. -/
theorem rows_sensor (kind : Sensor) (ls : List SensorLine) :
    rows (Utf8.encode (sensorHeader kind ++ ls.flatMap SensorLine.text)) =
      ls.map SensorLine.row := by
  rw [rows, dataRecords_sensor]
  exact filterMap_map_eq_map fun l _ => rowOf?_row l.isRow_row

/-- **A watering partition is read back**: the lines after its header are the written ones. -/
theorem lines_watering (ls : List WateringLine) :
    (rows (Utf8.encode (wateringHeader ++ ls.flatMap WateringLine.text))).filterMap
      WateringLine.ofRow? = ls := by
  rw [rows_watering]
  exact filterMap_map_eq_self fun l _ => l.ofRow?_row

/-- **A sensor partition is read back.** -/
theorem lines_sensor (kind : Sensor) (ls : List SensorLine) :
    (rows (Utf8.encode (sensorHeader kind ++ ls.flatMap SensorLine.text))).filterMap
      SensorLine.ofRow? = ls := by
  rw [rows_sensor]
  exact filterMap_map_eq_self fun l _ => l.ofRow?_row

end Partition

end IrrigationLog
