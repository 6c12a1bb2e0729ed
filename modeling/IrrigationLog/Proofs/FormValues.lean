/-
# The values and fields of forms

A form is put together from values and read field by field.  What is shared by all forms stands
here.

* **Values.** A number is read back in its own width, a list item by item, and a time from its
  numbered form (`Data.dateTime?_parts`).
* **Fields.** A record whose field names differ has each of its fields under its name
  (`Data.slots?_ownNames`).  Where a field stands does not matter, and neither do fields of
  other names (`Data.slots?_of_known`).
-/
import Mathlib.Data.List.Perm.Basic
import IrrigationLog.Data.Form
import IrrigationLog.Proofs.CalendarCount

namespace IrrigationLog

/-- Reading one by one what was made one by one. -/
theorem mapM_map_eq_some_map {α β γ : Type} {read? : β → Option γ} {put : α → β} {get : α → γ}
    {as : List α} (h : ∀ a ∈ as, read? (put a) = some (get a)) :
    (as.map put).mapM read? = some (as.map get) := by
  induction as with
  | nil => rfl
  | cons a as ih =>
    rw [List.map_cons, List.mapM_cons, h a List.mem_cons_self,
      ih fun b hb => h b (List.mem_cons_of_mem _ hb)]
    rfl

namespace Data

/-! ## 1. Values -/

theorem intIn?_of_bounds {low high i : Int} (h : low ≤ i ∧ i ≤ high) :
    (int i).intIn? low high = some i := by
  rw [intIn?, if_pos h]

/-- A number below a size is within the bounds of its words. -/
theorem intIn?_natCast {n size : Nat} (h : n < size) :
    (int n).intIn? 0 (size - 1) = some (n : Int) :=
  intIn?_of_bounds (by omega)

theorem uint8?_of_lt {n : Nat} (h : n < UInt8.size) : (int n).uint8? = some (.ofNat n) := by
  rw [uint8?, intIn?_natCast h, Option.map_some, Int.toNat_natCast]

theorem uint8?_toNat (n : UInt8) : (int n.toNat).uint8? = some n := by
  rw [uint8?_of_lt n.toNat_lt, UInt8.ofNat_toNat]

theorem uint16?_of_lt {n : Nat} (h : n < UInt16.size) : (int n).uint16? = some (.ofNat n) := by
  rw [uint16?, intIn?_natCast h, Option.map_some, Int.toNat_natCast]

theorem uint16?_toNat (n : UInt16) : (int n.toNat).uint16? = some n := by
  rw [uint16?_of_lt n.toNat_lt, UInt16.ofNat_toNat]

theorem uint32?_of_lt {n : Nat} (h : n < UInt32.size) : (int n).uint32? = some (.ofNat n) := by
  rw [uint32?, intIn?_natCast h, Option.map_some, Int.toNat_natCast]

theorem uint32?_toNat (n : UInt32) : (int n.toNat).uint32? = some n := by
  rw [uint32?_of_lt n.toNat_lt, UInt32.ofNat_toNat]

theorem uint64?_of_lt {n : Nat} (h : n < UInt64.size) : (int n).uint64? = some (.ofNat n) := by
  rw [uint64?, intIn?_natCast h, Option.map_some, Int.toNat_natCast]

theorem uint64?_toNat (n : UInt64) : (int n.toNat).uint64? = some n := by
  rw [uint64?_of_lt n.toNat_lt, UInt64.ofNat_toNat]

theorem int32?_toInt (n : Int32) : (int n.toInt).int32? = some n := by
  rw [int32?, intIn?_of_bounds ⟨n.minValue_le_toInt, n.toInt_le⟩, Option.map_some,
    Int32.ofInt_toInt]

theorem int64?_toInt (n : Int64) : (int n.toInt).int64? = some n := by
  rw [int64?, intIn?_of_bounds ⟨n.minValue_le_toInt, n.toInt_le⟩, Option.map_some,
    Int64.ofInt_toInt]

section Items

variable {α : Type} {put : α → Data} {read? : Data → Option α}

/-- Items are read back one by one. -/
theorem mapM_map_eq_some (h : ∀ a, read? (put a) = some a) (as : List α) :
    (as.map put).mapM read? = some as := by
  rw [mapM_map_eq_some_map fun a _ => h a, List.map_id']

theorem list?_map (h : ∀ a, read? (put a) = some a) (as : List α) :
    (list (as.map put)).list? read? = some as :=
  mapM_map_eq_some h as

theorem vector?_map {reader : Reader} {n : Nat} (h : ∀ a, read? (put a) = some a)
    (v : Vector α n) : (list (v.toList.map put)).vector? reader n read? = some v := by
  have hlength : (v.toList.map put).length = n := by
    rw [List.length_map, Vector.length_toList]
  have htake : (v.toList.map put).take n = v.toList.map put :=
    List.take_of_length_le (Nat.le_of_eq hlength)
  have hread : ((v.toList.map put).take n).mapM read? = some v.toList := by
    rw [htake, mapM_map_eq_some h]
  exact (congrArg (Option.bind · _) hread).trans (dif_pos ⟨v.length_toList, Or.inr hlength⟩)

/-- A value that may be absent is read back, if null is no value. -/
theorem optional?_ofOptional (h : ∀ a, read? (put a) = some a) (hnull : ∀ a, put a ≠ .null)
    (o : Option α) : (ofOptional put o).optional? read? = some o := by
  cases o with
  | none => rfl
  | some a =>
    rw [ofOptional, Data.optional?, h, Option.map_some]
    exact hnull a

end Items

/-! ## 2. Times -/

/-- Years are small. -/
theorem int32?_year (d : Date) :
    (int d.year).int32? = some (.ofInt d.year) ∧ (Int32.ofInt d.year).toInt = d.year := by
  have hyear := d.year_bounds
  have hlow : Int32.minValue.toInt = -2147483648 := rfl
  have hhigh : Int32.maxValue.toInt = 2147483647 := rfl
  have hin : (int d.year).intIn? Int32.minValue.toInt Int32.maxValue.toInt = some d.year :=
    intIn?_of_bounds (by omega)
  refine ⟨?_, Int32.toInt_ofInt_of_le (by omega) (by omega)⟩
  rw [int32?, hin, Option.map_some]

/-- **A time is read back from its numbered form.** -/
theorem dateTime?_parts {reader : Reader} (t : DateTime) :
    (ints t.parts).dateTime? reader = some t := by
  obtain ⟨hyear, hvalue⟩ := int32?_year t.date
  have hordinal : t.date.ordinal < UInt16.size :=
    Nat.lt_of_le_of_lt t.date.ordinal_le_366 (by decide)
  have hhour : t.time.hour < UInt8.size := Nat.lt_trans t.time.hour_lt (by decide)
  have hminute : t.time.minute < UInt8.size := Nat.lt_trans t.time.minute_lt (by decide)
  have hsecond : t.time.second < UInt8.size := Nat.lt_trans t.time.second_lt (by decide)
  have hnano : t.time.nanosecond < UInt32.size := Nat.lt_trans t.time.nanosecond_lt (by decide)
  simp only [ints, DateTime.parts, List.map_cons, List.map_nil, dateTime?, List.isEmpty_nil,
    or_true, if_true,
    hyear, uint16?_of_lt hordinal, uint8?_of_lt hhour, uint8?_of_lt hminute,
    uint8?_of_lt hsecond, uint32?_of_lt hnano, Option.bind_eq_bind, Option.bind_some]
  rw [hvalue, UInt16.toNat_ofNat_of_lt' hordinal,
    UInt8.toNat_ofNat_of_lt' hhour, UInt8.toNat_ofNat_of_lt' hminute,
    UInt8.toNat_ofNat_of_lt' hsecond, UInt32.toNat_ofNat_of_lt' hnano]
  exact t.ofOrdinalParts?_self

/-! ## 3. Fields -/

section Fields

variable {key name : String} {d : Data} {fields : List (String × Data)}

theorem filter_name_eq_nil (h : name ∉ fields.map Prod.fst) :
    (fields.filter fun f => f.1 == name) = [] := by
  rw [List.filter_eq_nil_iff]
  intro f hf heq
  exact h (eq_of_beq heq ▸ List.mem_map_of_mem hf)

theorem fieldSlot?_of_notMem (h : name ∉ fields.map Prod.fst) :
    fieldSlot? fields name = some .missing := by
  rw [fieldSlot?, filter_name_eq_nil h]

/-- A field that comes once is the one that is read. -/
theorem fieldSlot?_cons_self (h : name ∉ fields.map Prod.fst) :
    fieldSlot? ((name, d) :: fields) name = some (.given d) := by
  rw [fieldSlot?, List.filter_cons_of_pos (by simp), filter_name_eq_nil h]

/-- Fields of other names do not matter. -/
theorem fieldSlot?_cons_other (h : key ≠ name) :
    fieldSlot? ((key, d) :: fields) name = fieldSlot? fields name := by
  have hskip : ((key, d) :: fields).filter (fun f => f.1 == name)
      = fields.filter fun f => f.1 == name :=
    List.filter_cons_of_neg (by simpa using h)
  rw [fieldSlot?, hskip]
  rfl

/-- A field may stand anywhere. -/
theorem fieldSlot?_perm {others : List (String × Data)} (h : fields.Perm others) :
    fieldSlot? fields name = fieldSlot? others name := by
  have hperm := h.filter fun f => f.1 == name
  unfold fieldSlot?
  generalize fields.filter (fun f => f.1 == name) = mine at hperm ⊢
  generalize others.filter (fun f => f.1 == name) = theirs at hperm ⊢
  match mine with
  | [] => rw [hperm.nil_eq]
  | [f] => rw [List.singleton_perm.mp hperm]
  | f :: g :: fs =>
    -- a field given twice is given twice in any order
    match theirs, hperm.length_eq with
    | f' :: g' :: fs', _ => rfl

/-- Of some fields of a record, those with certain names are left. -/
theorem fieldSlot?_filter (p : String → Bool) :
    fieldSlot? (fields.filter fun f => p f.1) name =
      if p name then fieldSlot? fields name else some .missing := by
  split
  · rename_i hp
    have hsame : (fields.filter fun f => p f.1).filter (fun f => f.1 == name)
        = fields.filter fun f => f.1 == name := by
      rw [List.filter_filter]
      refine List.filter_congr fun f _ => ?_
      by_cases hname : f.1 = name
      · simp [hname, hp]
      · simp [hname]
    rw [fieldSlot?, hsame]
    rfl
  · rename_i hp
    refine fieldSlot?_of_notMem fun hmem => ?_
    obtain ⟨f, hf, rfl⟩ := List.mem_map.mp hmem
    exact hp (List.mem_filter.mp hf).2

/-- A record whose field names differ has each of its fields. -/
theorem fieldSlot?_own {f : String × Data} (h : (fields.map Prod.fst).Nodup) (hf : f ∈ fields) :
    fieldSlot? fields f.1 = some (.given f.2) := by
  induction fields with
  | nil => cases hf
  | cons g gs ih =>
    rw [List.map_cons, List.nodup_cons] at h
    rcases List.mem_cons.mp hf with rfl | hf
    · exact fieldSlot?_cons_self h.1
    · have hother : g.1 ≠ f.1 := by
        intro heq
        exact h.1 (heq ▸ List.mem_map_of_mem hf)
      rw [fieldSlot?_cons_other hother, ih h.2 hf]

variable (reader : Reader)

/-- **All fields of a record are found**, if their names differ. -/
theorem slots?_ownNames (h : (fields.map Prod.fst).Nodup) :
    (record fields).slots? reader (fields.map Prod.fst) =
      some (fields.map fun f => .given f.2) :=
  mapM_map_eq_some_map fun _ hf => fieldSlot?_own h hf

/-- Where some of the fields are left out, they are missed. -/
theorem slots?_remaining (h : (fields.map Prod.fst).Nodup) (left : List String) :
    (record (fields.filter fun f => f.1 ∉ left)).slots? reader (fields.map Prod.fst) =
      some (fields.map fun f => if f.1 ∈ left then .missing else .given f.2) := by
  refine mapM_map_eq_some_map fun f hf => ?_
  rw [fieldSlot?_filter fun name => name ∉ left, fieldSlot?_own h hf]
  by_cases hleft : f.1 ∈ left
  · simp [hleft]
  · simp [hleft]

/-- **Neither the order of the fields nor further fields matter.** -/
theorem slots?_of_known {given : List (String × Data)} {names : List String}
    (h : (given.filter fun g => g.1 ∈ names).Perm fields) :
    (record given).slots? reader names = (record fields).slots? reader names := by
  have hsame : ∀ name ∈ names, fieldSlot? given name = fieldSlot? fields name := by
    intro name hname
    rw [← fieldSlot?_perm h, fieldSlot?_filter fun name => name ∈ names,
      if_pos (decide_eq_true hname)]
  clear h
  change names.mapM (fieldSlot? given) = names.mapM (fieldSlot? fields)
  induction names with
  | nil => rfl
  | cons name names ih =>
    rw [List.mapM_cons, List.mapM_cons, hsame name List.mem_cons_self,
      ih fun n hn => hsame n (List.mem_cons_of_mem _ hn)]

/-- A list has its items in the place of the fields. -/
theorem slots?_items {items : List Data} {names : List String} (h : items.length = names.length) :
    (list items).slots? reader names = some (items.map .given) := by
  have htake : items.take names.length = items := List.take_of_length_le (Nat.le_of_eq h)
  rw [slots?, if_pos (Or.inr (Nat.le_of_eq h)), htake, h, Nat.sub_self, List.replicate_zero,
    List.append_nil]

end Fields

end Data

end IrrigationLog
