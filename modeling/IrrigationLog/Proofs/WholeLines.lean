/-
# Files of whole lines

A file that ends where a line ends can be continued: what is put behind it makes records of its
own, and the records that were there stay.  This holds whatever the file holds, because a byte
that ends a record belongs to no record.

* `Partition.Complete` says that a file is made of whole lines; `Partition.FileLine` is one line,
  any bytes with their line end.
* `Partition.dataRecords_append` is **what can be read of a complete file and of what follows
  it**, as soon as the file has a record to be its header.
* `Partition.decoded_insert` says what one more line in the middle of a file adds: what it can be
  read as, and nothing else.
-/
import IrrigationLog.Proofs.PartitionFile

namespace IrrigationLog

open Text

/-! ## 1. Marks -/

/-- A mark divides the pieces of a list into those before it and those after it. -/
theorem Text.cutAt_append_mark {α : Type} {p : α → Bool} {m : α} (hm : p m = true)
    (as bs : List α) : cutAt p (as ++ m :: bs) = cutAt p as ++ cutAt p bs := by
  induction as with
  | nil => simp [cutAt, hm]
  | cons a as ih =>
    rw [List.cons_append, cutAt, cutAt, ih]
    cases hp : p a with
    | true => rfl
    | false =>
      cases hcut : cutAt p as with
      | nil => exact absurd hcut (cutAt_ne_nil p as)
      | cons piece pieces => rfl

/-- With each mark there is one piece more. -/
theorem Text.length_cutAt {α : Type} (p : α → Bool) (as : List α) :
    (cutAt p as).length = as.countP p + 1 := by
  induction as with
  | nil => rfl
  | cons a as ih =>
    rw [cutAt, List.countP_cons]
    cases hp : p a with
    | true => exact congrArg (· + 1) ih
    | false =>
      cases hcut : cutAt p as with
      | nil => exact absurd hcut (cutAt_ne_nil p as)
      | cons piece pieces =>
        rw [hcut] at ih
        exact ih

namespace Partition

theorem recordsIn_append_mark {m : UInt8} (hm : endsRecord m = true) (as bs : List UInt8) :
    recordsIn (as ++ m :: bs) = recordsIn as ++ recordsIn bs := by
  unfold recordsIn
  rw [cutAt_append_mark hm, List.filter_append]

/-- Line ends alone make no record. -/
theorem recordsIn_of_marks {bytes : List UInt8} (h : ∀ b ∈ bytes, endsRecord b = true) :
    recordsIn bytes = [] := by
  induction bytes with
  | nil => rfl
  | cons b bs ih =>
    have hrest := ih fun c hc => h c (List.mem_cons_of_mem _ hc)
    have hsplit := recordsIn_append_mark (h b List.mem_cons_self) [] bs
    rw [List.nil_append] at hsplit
    rw [hsplit, hrest]
    rfl

/-- Bytes that end no record make at most one, and none only if there are none. -/
theorem recordsIn_of_plain {bytes : List UInt8} (h : ∀ b ∈ bytes, endsRecord b = false) :
    recordsIn bytes = if bytes = [] then [] else [bytes] := by
  unfold recordsIn
  rw [cutAt_eq_singleton h]
  cases bytes <;> rfl

/-! ## 2. Complete files -/

/-- A file that is empty or ends where a line ends. -/
def Complete (bytes : List UInt8) : Prop := ∀ b ∈ bytes.getLast?, endsRecord b = true

instance (bytes : List UInt8) : Decidable (Complete bytes) :=
  inferInstanceAs (Decidable (∀ b ∈ bytes.getLast?, endsRecord b = true))

theorem Complete.eq_nil_or_append {bytes : List UInt8} (h : Complete bytes) :
    bytes = [] ∨ ∃ as m, bytes = as ++ [m] ∧ endsRecord m = true := by
  rcases List.eq_nil_or_concat bytes with rfl | ⟨as, m, rfl⟩
  · exact Or.inl rfl
  · rw [List.concat_eq_append] at h ⊢
    exact Or.inr ⟨as, m, rfl, h m (by rw [List.getLast?_concat]; rfl)⟩

/-- What follows a complete file makes records of its own. -/
theorem recordsIn_append {as : List UInt8} (h : Complete as) (bs : List UInt8) :
    recordsIn (as ++ bs) = recordsIn as ++ recordsIn bs := by
  obtain rfl | ⟨as, m, rfl, hm⟩ := h.eq_nil_or_append
  · rfl
  · have hleft := recordsIn_append_mark hm as []
    rw [List.append_assoc, List.singleton_append, recordsIn_append_mark hm, hleft]
    exact congrArg (· ++ recordsIn bs) (List.append_nil _).symm

/-! ## 3. The byte order mark

The mark is looked for in the first three bytes only.  No byte of it ends a record, so a complete
file that is not empty either holds all of the mark or is told from it by one of its own bytes. -/

theorem Complete.dropMark {bytes : List UInt8} (h : Complete bytes) :
    Complete (dropMark bytes) := by
  unfold Partition.dropMark
  split
  · rename_i rest
    intro b hb
    refine h b ?_
    rw [List.getLast?_cons, List.getLast?_cons, List.getLast?_cons, hb]
    rfl
  · exact h

/-- Bytes that do not start with a byte order mark lose nothing. -/
theorem dropMark_of_no_mark {bytes : List UInt8}
    (h : ¬ ∃ rest, bytes = 0xef :: 0xbb :: 0xbf :: rest) : dropMark bytes = bytes := by
  unfold dropMark
  split
  · exact absurd ⟨_, rfl⟩ h
  · rfl

/-- A byte order mark is found in a complete file or not at all, whatever follows. -/
theorem dropMark_append {as : List UInt8} (h : Complete as) (hne : as ≠ []) (bs : List UInt8) :
    dropMark (as ++ bs) = dropMark as ++ bs := by
  match as with
  | [] => exact absurd rfl hne
  | [a] =>
    have ha : a ≠ 0xef := by
      rintro rfl
      exact absurd (h 0xef rfl) (by decide)
    rw [dropMark_of_no_mark (by simp [ha]), dropMark_of_no_mark (by simp)]
  | [a, b] =>
    have hb : b ≠ 0xbb := by
      rintro rfl
      exact absurd (h 0xbb rfl) (by decide)
    rw [dropMark_of_no_mark (by simp [hb]), dropMark_of_no_mark (by simp)]
  | a :: b :: c :: rest =>
    by_cases hmark : a = 0xef ∧ b = 0xbb ∧ c = 0xbf
    · obtain ⟨rfl, rfl, rfl⟩ := hmark
      rfl
    · rw [dropMark_of_no_mark (by simpa using hmark), dropMark_of_no_mark (by simpa using hmark)]

/-! ## 4. Reading on -/

theorem records_append {as : List UInt8} (h : Complete as) (hne : as ≠ []) (bs : List UInt8) :
    records (as ++ bs) = records as ++ recordsIn bs := by
  have hrecords : ∀ bytes, records bytes = recordsIn (dropMark bytes) := fun _ => rfl
  rw [hrecords, hrecords, dropMark_append h hne, recordsIn_append h.dropMark]

theorem ne_nil_of_records {bytes : List UInt8} (h : records bytes ≠ []) : bytes ≠ [] := by
  rintro rfl
  exact h rfl

/-- **What follows a complete file with a header is read after what it holds.** -/
theorem dataRecords_append {as : List UInt8} (h : Complete as) (hheader : records as ≠ [])
    (bs : List UInt8) : dataRecords (as ++ bs) = dataRecords as ++ recordsIn bs := by
  unfold dataRecords
  rw [records_append h (ne_nil_of_records hheader)]
  cases hr : records as with
  | nil => exact absurd hr hheader
  | cons header rest => rfl

/-! ## 5. One more line -/

/-- A line in a file: any bytes that end no record, and their line end. -/
structure FileLine where
  content : List UInt8
  ending : List UInt8
  one_record : ∀ b ∈ content, endsRecord b = false
  ending_ne_nil : ending ≠ []
  ends : ∀ b ∈ ending, endsRecord b = true

namespace FileLine

/-- The bytes of a line, its end included. -/
def bytes (l : FileLine) : List UInt8 := l.content ++ l.ending

theorem complete_bytes (l : FileLine) : Complete l.bytes := by
  intro b hb
  rw [bytes, List.getLast?_append, List.getLast?_eq_some_getLast l.ending_ne_nil, Option.some_or,
    Option.mem_some_iff] at hb
  exact hb ▸ l.ends _ (List.getLast_mem l.ending_ne_nil)

theorem recordsIn_bytes (l : FileLine) :
    recordsIn l.bytes = if l.content = [] then [] else [l.content] := by
  cases hend : l.ending with
  | nil => exact absurd hend l.ending_ne_nil
  | cons m rest =>
    have hends : ∀ b ∈ m :: rest, endsRecord b = true := hend ▸ l.ends
    have hrest := recordsIn_of_marks fun b hb => hends b (List.mem_cons_of_mem _ hb)
    rw [bytes, hend, recordsIn_append_mark (hends m List.mem_cons_self), hrest, List.append_nil,
      recordsIn_of_plain l.one_record]

end FileLine

/-- What some bytes can be read as when each record is read by itself.  An empty record is read
as nothing: it is no record. -/
theorem filterMap_recordsIn_bytes {α : Type} {decode : List UInt8 → Option α}
    (hempty : decode [] = none) (l : FileLine) :
    (recordsIn l.bytes).filterMap decode = (decode l.content).toList := by
  rw [l.recordsIn_bytes]
  by_cases hcontent : l.content = []
  · rw [if_pos hcontent, hcontent, hempty]
    rfl
  · rw [if_neg hcontent]
    cases hdecode : decode l.content <;> simp [hdecode]

/-- **A line in the middle of a file adds what it can be read as.** -/
theorem decoded_insert {α : Type} {decode : List UInt8 → Option α} (hempty : decode [] = none)
    {before : List UInt8} (h : Complete before) (hheader : records before ≠ []) (l : FileLine)
    (after : List UInt8) :
    (dataRecords (before ++ l.bytes ++ after)).filterMap decode =
      (dataRecords before).filterMap decode ++ (decode l.content).toList ++
        (recordsIn after).filterMap decode := by
  rw [List.append_assoc, dataRecords_append h hheader, recordsIn_append l.complete_bytes,
    List.filterMap_append, List.filterMap_append, filterMap_recordsIn_bytes hempty,
    List.append_assoc]

end Partition

end IrrigationLog
