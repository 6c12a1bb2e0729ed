/-
# Typed dates and times

The reader of typed dates and times takes the texts of one small grammar, and each of them for
one thing only.  The grammar is written down beside the reader.

* **A date** is a year of four digits, with a sign or without, month and day
  (`DateText`, `takeDate?_eq_some_iff`).
* **A time of day** is given to the minute or to the second (`TimeOfDay.TypedAs`,
  `TimeOfDay.parse?_eq_some_iff`).
* **Between them** stands one blank or one `T`.  The reader puts a blank in the place of the
  first `T` of the text, wherever it stands.  That makes no text of the grammar out of another
  one, because dates and times have no blank of their own
  (`exists_separator_of_blankFirstT`).

So a text is a typed date, or a typed time, exactly when it belongs to the grammar between its
surrounding blanks (`Date.parse?_eq_some_iff`, `DateTime.parse?_eq_some_iff`), and
`DateTime.typed_unambiguous` is the rest.
-/
import Mathlib.Data.List.Basic
import IrrigationLog.Calendar.Written
import IrrigationLog.Proofs.DateOrder
import IrrigationLog.Proofs.PaddedNumbers

namespace IrrigationLog

open Text

/-! ## 1. Texts between blanks -/

namespace Text

/-- A text of blanks. -/
def AllBlank (cs : List Char) : Prop := ∀ c ∈ cs, isBlank c = true

instance (cs : List Char) : Decidable (AllBlank cs) :=
  List.decidableBAll (fun c => isBlank c = true) cs

/-- **Surrounding blanks are let go.** -/
theorem trim_surrounded {before cs after : List Char} (hbefore : AllBlank before)
    (hafter : AllBlank after) (hne : cs ≠ []) (hstart : ∀ c ∈ cs.head?, isBlank c = false)
    (hend : ∀ c ∈ cs.getLast?, isBlank c = false) : trim (before ++ cs ++ after) = cs := by
  have hdrop : (before ++ cs ++ after).dropWhile isBlank = cs ++ after := by
    obtain ⟨c, ds, rfl⟩ := List.exists_cons_of_ne_nil hne
    rw [List.append_assoc, List.dropWhile_append_of_pos hbefore]
    exact List.dropWhile_cons_of_neg (by simp [hstart c rfl])
  have hreverse : (cs ++ after).reverse.dropWhile isBlank = cs.reverse.dropWhile isBlank := by
    rw [List.reverse_append, List.dropWhile_append_of_pos]
    intro c hc
    exact hafter c (List.mem_reverse.mp hc)
  have hself := trimEndWhile_eq_self hend
  unfold trimEndWhile at hself
  rw [trim, hdrop, trimEndWhile, hreverse, hself]

end Text

/-! ## 2. Reading fixed-width parts -/

variable {cs rest : List Char}

/-- A padded number is taken back. -/
theorem takeDigits?_padded {width n : Nat} (hwidth : 0 < width) (hn : n < 10 ^ width)
    (rest : List Char) : takeDigits? width (padded width n ++ rest) = some (n, rest) := by
  have hlength := length_padded hwidth hn
  unfold takeDigits?
  dsimp only
  rw [List.take_left' hlength, List.drop_left' hlength, ofDigitChars_padded]
  exact if_pos ⟨hlength, List.all_eq_true.mpr fun c hc => isDigit_of_mem_padded hc⟩

theorem takeTwo?_padded {n : Nat} (hn : n < 10 ^ 2) (rest : List Char) :
    takeDigits? 2 (padded 2 n ++ rest) = some (n, rest) :=
  takeDigits?_padded (by decide) hn rest

/-- **Digits are taken exactly as a padded number stands there.** -/
theorem takeDigits?_eq_some_iff {width n : Nat} (hwidth : 0 < width) :
    takeDigits? width cs = some (n, rest) ↔ n < 10 ^ width ∧ cs = padded width n ++ rest := by
  constructor
  · intro h
    unfold takeDigits? at h
    dsimp only at h
    split at h
    · rename_i hds
      cases h
      have hne : cs.take width ≠ [] := by
        intro hnil
        rw [hnil] at hds
        exact absurd hds.1 (Nat.ne_of_lt hwidth)
      obtain ⟨htext, hbound⟩ := eq_padded_of_digits hne (List.all_eq_true.mp hds.2)
      rw [hds.1] at htext hbound
      rw [← htext, List.take_append_drop]
      exact ⟨hbound, rfl⟩
    · cases h
  · rintro ⟨hn, rfl⟩
    exact takeDigits?_padded hwidth hn rest

@[simp]
theorem takeChar?_self (c : Char) (rest : List Char) : takeChar? c (c :: rest) = some rest :=
  if_pos rfl

theorem takeChar?_eq_some_iff {c : Char} : takeChar? c cs = some rest ↔ cs = c :: rest := by
  cases cs with
  | nil => simp [takeChar?]
  | cons d ds =>
    unfold takeChar?
    split
    · rename_i h
      simp [h]
    · rename_i h
      simp [h]

/-! ## 3. The characters of the grammar -/

/-- The characters of typed dates and times. -/
def isTypedChar (c : Char) : Bool := c.isDigit || c == '+' || c == '-' || c == ':'

theorem isTypedChar_of_mem_padded {width n : Nat} {c : Char} (h : c ∈ padded width n) :
    isTypedChar c = true := by
  simp [isTypedChar, isDigit_of_mem_padded h]

/-- None of them is a blank or a letter. -/
theorem of_isTypedChar {c : Char} (h : isTypedChar c = true) : isBlank c = false ∧ c ≠ 'T' := by
  simp only [isTypedChar, Bool.or_eq_true, beq_iff_eq] at h
  rcases h with ((h | rfl) | rfl) | rfl
  · have hcode := toNat_of_isDigit h
    constructor
    · cases hblank : isBlank c with
      | false => rfl
      | true =>
        have := toNat_of_isBlank hblank
        omega
    · rintro rfl
      exact absurd h (by decide)
  · decide
  · decide
  · decide

/-- A text of the grammar. -/
def TypedText (cs : List Char) : Prop := ∀ c ∈ cs, isTypedChar c = true

theorem TypedText.blank_notMem (h : TypedText cs) : ' ' ∉ cs := by
  intro hmem
  exact absurd (h ' ' hmem) (by decide)

theorem TypedText.notMem_T (h : TypedText cs) : 'T' ∉ cs := by
  intro hmem
  exact absurd (h 'T' hmem) (by decide)

/-! ## 4. The grammar of dates -/

/-- A typed year: four digits after an optional sign. -/
inductive YearText : Int → List Char → Prop
  | plain {n : Nat} (h : n < 10 ^ 4) : YearText n (padded 4 n)
  | plus {n : Nat} (h : n < 10 ^ 4) : YearText n ('+' :: padded 4 n)
  | minus {n : Nat} (h : n < 10 ^ 4) : YearText (-n) ('-' :: padded 4 n)

theorem takeYear?_eq_some_iff {y : Int} :
    takeYear? cs = some (y, rest) ↔ ∃ part, YearText y part ∧ cs = part ++ rest := by
  constructor
  · intro h
    unfold takeYear? at h
    split at h
    · obtain ⟨⟨n, r⟩, hn, heq⟩ := Option.map_eq_some_iff.mp h
      cases heq
      obtain ⟨hbound, rfl⟩ := (takeDigits?_eq_some_iff (by decide)).mp hn
      exact ⟨_, .plus hbound, rfl⟩
    · obtain ⟨⟨n, r⟩, hn, heq⟩ := Option.map_eq_some_iff.mp h
      cases heq
      obtain ⟨hbound, rfl⟩ := (takeDigits?_eq_some_iff (by decide)).mp hn
      exact ⟨_, .minus hbound, rfl⟩
    · obtain ⟨⟨n, r⟩, hn, heq⟩ := Option.map_eq_some_iff.mp h
      cases heq
      obtain ⟨hbound, rfl⟩ := (takeDigits?_eq_some_iff (by decide)).mp hn
      exact ⟨_, .plain hbound, rfl⟩
  · rintro ⟨part, hpart, rfl⟩
    cases hpart with
    | @plain n h =>
      have hdigits := takeDigits?_padded (by decide) h rest
      -- a digit is no sign
      have hsign : ∀ c ∈ padded 4 n, c ≠ '+' ∧ c ≠ '-' := by
        intro c hc
        have hdigit := isDigit_of_mem_padded hc
        constructor <;> rintro rfl <;> exact absurd hdigit (by decide)
      have hne : padded 4 n ≠ [] := List.ne_nil_of_length_eq_add_one (length_padded (by decide) h)
      obtain ⟨c, ds, hcons⟩ := List.exists_cons_of_ne_nil hne
      rw [hcons, List.cons_append] at hdigits ⊢
      have hc := hsign c (hcons ▸ List.mem_cons_self)
      unfold takeYear?
      split
      · rename_i heq
        exact absurd (List.cons.inj heq).1 hc.1
      · rename_i heq
        exact absurd (List.cons.inj heq).1 hc.2
      · rw [hdigits]
        rfl
    | @plus n h =>
      have hdigits := takeDigits?_padded (by decide) h rest
      rw [List.cons_append, takeYear?, hdigits]
      rfl
    | @minus n h =>
      have hdigits := takeDigits?_padded (by decide) h rest
      rw [List.cons_append, takeYear?, hdigits]
      rfl

/-- A typed date: year, month and day. -/
def DateText (d : Date) (cs : List Char) : Prop :=
  ∃ year, YearText d.year year ∧ cs = year ++ '-' :: (padded 2 d.month ++ '-' :: padded 2 d.day)

/-- Month and day have two digits. -/
theorem Date.parts_lt (d : Date) : d.month < 10 ^ 2 ∧ d.day < 10 ^ 2 := by
  have hmonth := d.month_bounds
  have hday := d.day_bounds
  have hlong := daysInMonth_le d.year d.month
  omega

/-- **A date is taken exactly as its text stands there.** -/
theorem takeDate?_eq_some_iff {d : Date} :
    takeDate? cs = some (d, rest) ↔ ∃ part, DateText d part ∧ cs = part ++ rest := by
  constructor
  · intro h
    obtain ⟨⟨y, cs1⟩, hyear, h⟩ := Option.bind_eq_some_iff.mp h
    obtain ⟨cs2, hdash, h⟩ := Option.bind_eq_some_iff.mp h
    obtain ⟨⟨m, cs3⟩, hmonth, h⟩ := Option.bind_eq_some_iff.mp h
    obtain ⟨cs4, hdash', h⟩ := Option.bind_eq_some_iff.mp h
    obtain ⟨⟨n, cs5⟩, hday, h⟩ := Option.bind_eq_some_iff.mp h
    obtain ⟨e, hdate, h⟩ := Option.bind_eq_some_iff.mp h
    cases h
    obtain ⟨year, htyped, rfl⟩ := takeYear?_eq_some_iff.mp hyear
    obtain rfl := takeChar?_eq_some_iff.mp hdash
    obtain ⟨-, rfl⟩ := (takeDigits?_eq_some_iff (by decide)).mp hmonth
    obtain rfl := takeChar?_eq_some_iff.mp hdash'
    obtain ⟨-, rfl⟩ := (takeDigits?_eq_some_iff (by decide)).mp hday
    obtain ⟨rfl, rfl, rfl⟩ := Date.ofYmd?_eq_some_iff.mp hdate
    exact ⟨_, ⟨year, htyped, rfl⟩, by simp⟩
  · rintro ⟨part, ⟨year, hyear, rfl⟩, rfl⟩
    obtain ⟨hmonth, hday⟩ := d.parts_lt
    have htyped (cs : List Char) : takeYear? (year ++ cs) = some (d.year, cs) :=
      takeYear?_eq_some_iff.mpr ⟨year, hyear, rfl⟩
    simp [takeDate?, htyped, takeTwo?_padded hmonth, takeTwo?_padded hday]

/-- A date is shown as it can be typed. -/
theorem dateText_shown (d : Date) : DateText d d.shown := by
  have hbounds := d.year_bounds
  refine ⟨shownYear d.year, ?_, by simp [Date.shown]⟩
  generalize d.year = y at hbounds
  cases y with
  | ofNat n =>
    have hn : (n : Int) ≤ 9999 := hbounds.2
    exact .plain (by omega)
  | negSucc n =>
    have hn : -9999 ≤ -((n + 1 : Nat) : Int) := hbounds.1
    exact .minus (n := n + 1) (by omega)

theorem DateText.ne_nil {d : Date} (h : DateText d cs) : cs ≠ [] := by
  obtain ⟨year, -, rfl⟩ := h
  simp

theorem YearText.typedText {y : Int} (h : YearText y cs) : TypedText cs := by
  intro c hc
  cases h with
  | plain => exact isTypedChar_of_mem_padded hc
  | plus =>
    rcases List.mem_cons.mp hc with rfl | hc
    · decide
    · exact isTypedChar_of_mem_padded hc
  | minus =>
    rcases List.mem_cons.mp hc with rfl | hc
    · decide
    · exact isTypedChar_of_mem_padded hc

theorem DateText.typedText {d : Date} (h : DateText d cs) : TypedText cs := by
  obtain ⟨year, hyear, rfl⟩ := h
  intro c hc
  simp only [List.mem_append, List.mem_cons] at hc
  rcases hc with hc | rfl | hc | rfl | hc
  · exact hyear.typedText c hc
  · decide
  · exact isTypedChar_of_mem_padded hc
  · decide
  · exact isTypedChar_of_mem_padded hc

/-- Blanks around a typed date are let go. -/
theorem DateText.trim_surrounded {d : Date} {before after : List Char} (h : DateText d cs)
    (hbefore : AllBlank before) (hafter : AllBlank after) : trim (before ++ cs ++ after) = cs := by
  refine Text.trim_surrounded hbefore hafter h.ne_nil ?_ ?_
  · intro c hc
    exact (of_isTypedChar (h.typedText c (List.mem_of_mem_head? hc))).1
  · intro c hc
    exact (of_isTypedChar (h.typedText c (List.mem_of_mem_getLast? hc))).1

theorem DateText.trim_eq {d : Date} (h : DateText d cs) : trim cs = cs := by
  have hnone : AllBlank [] := fun _ hc => absurd hc List.not_mem_nil
  simpa using h.trim_surrounded hnone hnone

/-! ## 5. The grammar of times of day -/

namespace TimeOfDay

/-- A time of day typed to the minute. -/
def typedMinute (t : TimeOfDay) : List Char := padded 2 t.hour ++ ':' :: padded 2 t.minute

/-- A time of day typed to the second. -/
def typedSecond (t : TimeOfDay) : List Char := t.typedMinute ++ ':' :: padded 2 t.second

/-- The text of a time of day on a whole second; on a whole minute the second may be left out. -/
def TypedAs (t : TimeOfDay) (cs : List Char) : Prop :=
  t.nanosecond = 0 ∧ (cs = t.typedSecond ∨ t.second = 0 ∧ cs = t.typedMinute)

/-- Hour, minute and second have two digits. -/
theorem parts_lt (t : TimeOfDay) : t.hour < 10 ^ 2 ∧ t.minute < 10 ^ 2 ∧ t.second < 10 ^ 2 := by
  have hhour := t.hour_lt
  have hminute := t.minute_lt
  have hsecond := t.second_lt
  omega

/-- **A time of day is read exactly from its text.** -/
theorem parse?_eq_some_iff {t : TimeOfDay} : parse? cs = some t ↔ t.TypedAs cs := by
  obtain ⟨hhour, hminute, hsecond⟩ := t.parts_lt
  constructor
  · intro h
    obtain ⟨⟨hour, cs1⟩, hhour, h⟩ := Option.bind_eq_some_iff.mp h
    obtain ⟨cs2, hcolon, h⟩ := Option.bind_eq_some_iff.mp h
    obtain ⟨⟨minute, cs3⟩, hminute, h⟩ := Option.bind_eq_some_iff.mp h
    obtain ⟨-, hhead⟩ := (takeDigits?_eq_some_iff (by decide)).mp hhour
    have hmark := takeChar?_eq_some_iff.mp hcolon
    obtain ⟨-, htail⟩ := (takeDigits?_eq_some_iff (by decide)).mp hminute
    dsimp only at h
    cases cs3 with
    | nil =>
      obtain ⟨rfl, rfl, hsecond, hnano⟩ := ofParts?_eq_some_iff.mp h
      exact ⟨hnano, Or.inr ⟨hsecond, by rw [hhead, hmark, htail, List.append_nil, typedMinute]⟩⟩
    | cons c cs3 =>
      obtain ⟨cs4, hcolon', h⟩ := Option.bind_eq_some_iff.mp h
      obtain ⟨⟨second, cs5⟩, hsecond, h⟩ := Option.bind_eq_some_iff.mp h
      have hmark' := takeChar?_eq_some_iff.mp hcolon'
      obtain ⟨-, hend⟩ := (takeDigits?_eq_some_iff (by decide)).mp hsecond
      dsimp only at h
      cases cs5 with
      | nil =>
        obtain ⟨rfl, rfl, rfl, hnano⟩ := ofParts?_eq_some_iff.mp h
        refine ⟨hnano, Or.inl ?_⟩
        rw [hhead, hmark, htail, hmark', hend, List.append_nil, typedSecond, typedMinute,
          List.append_assoc, List.cons_append]
      | cons c cs5 => cases h
  · rintro ⟨hnano, rfl | ⟨hzero, rfl⟩⟩
    · have hparts : ofParts? t.hour t.minute t.second 0 = some t :=
        ofParts?_eq_some_iff.mpr ⟨rfl, rfl, rfl, hnano⟩
      have hend := takeTwo?_padded hsecond []
      rw [List.append_nil] at hend
      simp [parse?, typedSecond, typedMinute, takeTwo?_padded hhour, takeTwo?_padded hminute,
        hend, hparts]
    · have hparts : ofParts? t.hour t.minute 0 0 = some t :=
        ofParts?_eq_some_iff.mpr ⟨rfl, rfl, hzero, hnano⟩
      have hend := takeTwo?_padded hminute []
      rw [List.append_nil] at hend
      simp [parse?, typedMinute, takeTwo?_padded hhour, hend, hparts]

theorem TypedAs.ne_nil {t : TimeOfDay} (h : t.TypedAs cs) : cs ≠ [] := by
  obtain ⟨-, rfl | ⟨-, rfl⟩⟩ := h
  · simp [typedSecond]
  · simp [typedMinute]

theorem TypedAs.typedText {t : TimeOfDay} (h : t.TypedAs cs) : TypedText cs := by
  intro c hc
  obtain ⟨-, rfl | ⟨-, rfl⟩⟩ := h
  · simp only [typedSecond, typedMinute, List.mem_append, List.mem_cons] at hc
    rcases hc with (hc | rfl | hc) | rfl | hc
    · exact isTypedChar_of_mem_padded hc
    · decide
    · exact isTypedChar_of_mem_padded hc
    · decide
    · exact isTypedChar_of_mem_padded hc
  · simp only [typedMinute, List.mem_append, List.mem_cons] at hc
    rcases hc with hc | rfl | hc
    · exact isTypedChar_of_mem_padded hc
    · decide
    · exact isTypedChar_of_mem_padded hc

end TimeOfDay

/-! ## 6. The separator -/

/-- Where no blank is seen, no `T` was replaced. -/
theorem eq_of_blankFirstT (hblank : ' ' ∉ rest) (h : blankFirstT cs = rest) : cs = rest := by
  induction cs generalizing rest with
  | nil => exact h
  | cons c cs ih =>
    unfold blankFirstT at h
    split at h
    · rename_i heq
      cases heq
    · exact absurd (h ▸ List.mem_cons_self) hblank
    · rename_i heq
      cases heq
      subst h
      exact congrArg (c :: ·) (ih (fun hmem => hblank (List.mem_cons_of_mem _ hmem)) rfl)

/-- **The separator is a blank or a `T`**, if there is no other blank. -/
theorem exists_separator_of_blankFirstT {part : List Char} (hpart : ' ' ∉ part)
    (hrest : ' ' ∉ rest) (h : blankFirstT cs = part ++ ' ' :: rest) :
    ∃ sep, (sep = ' ' ∨ sep = 'T') ∧ cs = part ++ sep :: rest := by
  induction cs generalizing part with
  | nil =>
    cases part with
    | nil => cases h
    | cons p ps => cases h
  | cons c cs ih =>
    unfold blankFirstT at h
    split at h
    · rename_i heq
      cases heq
    · rename_i heq
      cases heq
      cases part with
      | nil =>
        cases h
        exact ⟨'T', Or.inr rfl, rfl⟩
      | cons p ps =>
        obtain ⟨rfl, -⟩ := List.cons.inj h
        exact absurd List.mem_cons_self hpart
    · rename_i heq
      cases heq
      cases part with
      | nil =>
        obtain ⟨rfl, htail⟩ := List.cons.inj h
        exact ⟨' ', Or.inl rfl, by rw [eq_of_blankFirstT hrest htail]; rfl⟩
      | cons p ps =>
        obtain ⟨rfl, htail⟩ := List.cons.inj h
        obtain ⟨sep, hsep, rfl⟩ := ih (fun hmem => hpart (List.mem_cons_of_mem _ hmem)) htail
        exact ⟨sep, hsep, rfl⟩

theorem blankFirstT_cons {c : Char} (hc : c ≠ 'T') (cs : List Char) :
    blankFirstT (c :: cs) = c :: blankFirstT cs := by
  rw [blankFirstT]
  exact hc

/-- A text without `T` stays as it is. -/
theorem blankFirstT_eq_self (h : 'T' ∉ cs) : blankFirstT cs = cs := by
  induction cs with
  | nil => rfl
  | cons c cs ih =>
    have hc : c ≠ 'T' := by
      rintro rfl
      exact h List.mem_cons_self
    rw [blankFirstT_cons hc, ih fun hmem => h (List.mem_cons_of_mem _ hmem)]

/-- The separator is seen as a blank. -/
theorem blankFirstT_separator {part : List Char} {sep : Char} (hpart : 'T' ∉ part)
    (hrest : 'T' ∉ rest) (hsep : sep = ' ' ∨ sep = 'T') :
    blankFirstT (part ++ sep :: rest) = part ++ ' ' :: rest := by
  induction part with
  | nil =>
    rcases hsep with rfl | rfl
    · exact congrArg (' ' :: ·) (blankFirstT_eq_self hrest)
    · rfl
  | cons c cs ih =>
    have hc : c ≠ 'T' := by
      rintro rfl
      exact hpart List.mem_cons_self
    rw [List.cons_append, blankFirstT_cons hc, ih fun hmem => hpart (List.mem_cons_of_mem _ hmem)]
    rfl

/-! ## 7. Typed dates and times -/

/-- **A text is a typed date exactly when it is the text of a date between blanks.** -/
theorem Date.parse?_eq_some_iff {text : List Char} {d : Date} :
    parse? text = some d ↔ DateText d (trim text) := by
  unfold parse?
  constructor
  · intro h
    split at h
    · rename_i e htake
      cases h
      obtain ⟨part, hpart, heq⟩ := takeDate?_eq_some_iff.mp htake
      rw [heq, List.append_nil]
      exact hpart
    · cases h
  · intro h
    rw [takeDate?_eq_some_iff.mpr ⟨_, h, (List.append_nil _).symm⟩]

namespace DateTime

/-- A typed date-time: a date, one blank or one `T`, and a time of day. -/
def TypedAs (t : DateTime) (cs : List Char) : Prop :=
  ∃ date sep time, DateText t.date date ∧ (sep = ' ' ∨ sep = 'T') ∧ t.time.TypedAs time ∧
    cs = date ++ sep :: time

/-- **A text is a typed time exactly when it is the text of a time between blanks.** -/
theorem parse?_eq_some_iff {text : List Char} {t : DateTime} :
    parse? text = some t ↔ t.TypedAs (trim text) := by
  constructor
  · intro h
    obtain ⟨⟨date, cs⟩, hdate, h⟩ := Option.bind_eq_some_iff.mp h
    obtain ⟨cs', hblank, h⟩ := Option.bind_eq_some_iff.mp h
    obtain ⟨time, htime, h⟩ := Option.bind_eq_some_iff.mp h
    cases h
    obtain ⟨part, hpart, hseen⟩ := takeDate?_eq_some_iff.mp hdate
    rw [takeChar?_eq_some_iff.mp hblank] at hseen
    have htyped := TimeOfDay.parse?_eq_some_iff.mp htime
    obtain ⟨sep, hsep, htext⟩ := exists_separator_of_blankFirstT hpart.typedText.blank_notMem
      htyped.typedText.blank_notMem hseen
    exact ⟨part, sep, cs', hpart, hsep, htyped, htext⟩
  · rintro ⟨date, sep, time, hdate, hsep, htime, htext⟩
    have hseen : blankFirstT (trim text) = date ++ ' ' :: time := by
      rw [htext]
      exact blankFirstT_separator hdate.typedText.notMem_T htime.typedText.notMem_T hsep
    have hdate' := takeDate?_eq_some_iff.mpr ⟨date, hdate, hseen⟩
    have htime' := TimeOfDay.parse?_eq_some_iff.mpr htime
    simp [parse?, hdate', htime']

/-- Blanks around a typed date-time are let go. -/
theorem TypedAs.trim_surrounded {t : DateTime} {before cs after : List Char} (h : t.TypedAs cs)
    (hbefore : AllBlank before) (hafter : AllBlank after) : trim (before ++ cs ++ after) = cs := by
  obtain ⟨date, sep, time, hdate, -, htime, rfl⟩ := h
  have hhead : (date ++ sep :: time).head? = date.head? :=
    List.head?_append_of_ne_nil _ hdate.ne_nil
  have hlast : (date ++ sep :: time).getLast? = time.getLast? := by
    rw [List.append_cons]
    exact List.getLast?_append_of_ne_nil _ htime.ne_nil
  refine Text.trim_surrounded hbefore hafter (by simp) ?_ ?_
  · intro c hc
    rw [hhead] at hc
    exact (of_isTypedChar (hdate.typedText c (List.mem_of_mem_head? hc))).1
  · intro c hc
    rw [hlast] at hc
    exact (of_isTypedChar (htime.typedText c (List.mem_of_mem_getLast? hc))).1

/-- **Dates and times are typed without ambiguity.**  Each date-time is read from its text, with
seconds or without, with either separator and between any blanks; what is read as a date-time
is such a text, of the date that its first part is read as; and no text is read as a date and
as a date-time. -/
theorem typed_unambiguous :
    (∀ (t : DateTime) (before after : List Char) (sep : Char), t.time.nanosecond = 0 →
      AllBlank before → AllBlank after → (sep = ' ' ∨ sep = 'T') →
        parse? (before ++ (t.date.shown ++ sep :: t.time.typedSecond) ++ after) = some t ∧
        (t.time.second = 0 →
          parse? (before ++ (t.date.shown ++ sep :: t.time.typedMinute) ++ after) = some t)) ∧
    (∀ (d : Date) (before after : List Char), AllBlank before → AllBlank after →
      Date.parse? (before ++ d.shown ++ after) = some d) ∧
    (∀ text t, parse? text = some t → ∃ date sep time, trim text = date ++ sep :: time ∧
      (sep = ' ' ∨ sep = 'T') ∧ Date.parse? date = some t.date ∧ t.time.TypedAs time) ∧
    ∀ text, Date.parse? text = none ∨ parse? text = none := by
  refine ⟨?_, ?_, ?_, ?_⟩
  · intro t before after sep hnano hbefore hafter hsep
    have hread {time : List Char} (htime : t.time.TypedAs time) :
        parse? (before ++ (t.date.shown ++ sep :: time) ++ after) = some t := by
      have htyped : t.TypedAs (t.date.shown ++ sep :: time) :=
        ⟨_, sep, time, dateText_shown t.date, hsep, htime, rfl⟩
      rw [parse?_eq_some_iff, htyped.trim_surrounded hbefore hafter]
      exact htyped
    exact ⟨hread ⟨hnano, Or.inl rfl⟩, fun hsecond => hread ⟨hnano, Or.inr ⟨hsecond, rfl⟩⟩⟩
  · intro d before after hbefore hafter
    have htyped := dateText_shown d
    rw [Date.parse?_eq_some_iff, htyped.trim_surrounded hbefore hafter]
    exact htyped
  · intro text t h
    obtain ⟨date, sep, time, hdate, hsep, htime, htext⟩ := parse?_eq_some_iff.mp h
    refine ⟨date, sep, time, htext, hsep, ?_, htime⟩
    rw [Date.parse?_eq_some_iff, hdate.trim_eq]
    exact hdate
  · intro text
    cases hdate : Date.parse? text with
    | none => exact Or.inl rfl
    | some d =>
      cases htime : parse? text with
      | none => exact Or.inr rfl
      | some t =>
        -- the separator is no character of a date
        have hd := (Date.parse?_eq_some_iff.mp hdate).typedText
        obtain ⟨date, sep, time, -, hsep, -, htext⟩ := parse?_eq_some_iff.mp htime
        rw [htext] at hd
        have hchar := hd sep (by simp)
        rcases hsep with rfl | rfl <;> exact absurd hchar (by decide)

/-- Two seconds before midnight on a leap day long ago. -/
def leapNight : DateTime := (DateTime.ofOrdinalParts? (-4) 60 23 59 58 0).getD .epoch

/-- A leap day of a year below zero, typed with a `T` and an ideographic space in front, is read
back, and its text is no date. -/
theorem typed_unambiguous_of_leapNight :
    parse? "\u3000-0004-02-29T23:59:58\n".toList = some leapNight ∧
      Date.parse? "\u3000-0004-02-29T23:59:58\n".toList = none := by
  have hread : parse? "\u3000-0004-02-29T23:59:58\n".toList = some leapNight :=
    (typed_unambiguous.1 leapNight ['\u3000'] ['\n'] 'T' rfl (by decide) (by decide)
      (Or.inr rfl)).1
  refine ⟨hread, ?_⟩
  rcases typed_unambiguous.2.2.2 "\u3000-0004-02-29T23:59:58\n".toList with h | h
  · exact h
  · rw [h] at hread
    cases hread

end DateTime

end IrrigationLog
