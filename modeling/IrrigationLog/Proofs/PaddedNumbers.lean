/-
# Padded numbers

A number padded with zeros to a width is told by its text (`padded_injective`,
`signedPadded_injective`), and a run of digits is the padded number that it is read as
(`eq_padded_of_digits`): a number that fits a width has one text of that width.
-/
import Mathlib.Algebra.GroupWithZero.Nat
import Mathlib.Algebra.Ring.Int.Defs
import Mathlib.Data.List.Induction
import IrrigationLog.Text.Numeral

namespace IrrigationLog.Text

/-! ## 1. The text of a padded number -/

/-- A padded number is made of digits. -/
theorem isDigit_of_mem_padded {width n : Nat} {c : Char} (h : c ∈ padded width n) :
    c.isDigit = true := by
  unfold padded at h
  rcases List.mem_append.mp h with hz | hd
  · rw [(List.mem_replicate.mp hz).2]
    decide
  · exact isDigit_of_mem_decimal hd

/-- Zeros in front do not change what is read. -/
theorem ofDigitChars_padded (width n : Nat) : Nat.ofDigitChars 10 (padded width n) 0 = n := by
  unfold padded decimal
  rw [Nat.ofDigitChars_append, Nat.ofDigitChars_replicate_zero, Nat.mul_zero,
    Nat.ofDigitChars_ten_toDigits]

theorem padded_injective {width m n : Nat} (h : padded width m = padded width n) : m = n := by
  rw [← ofDigitChars_padded width m, h, ofDigitChars_padded]

/-- A dash is no digit. -/
theorem dash_not_mem_padded (width n : Nat) : '-' ∉ padded width n := fun h =>
  absurd (isDigit_of_mem_padded h) (by decide)

/-- A number below zero does not look like one that is not. -/
theorem padded_ne_dash_cons (width n : Nat) (cs : List Char) : padded width n ≠ '-' :: cs := by
  intro h
  exact dash_not_mem_padded width n (h ▸ List.mem_cons_self)

theorem signedPadded_injective {width : Nat} {i j : Int}
    (h : signedPadded width i = signedPadded width j) : i = j := by
  cases i with
  | ofNat m =>
    cases j with
    | ofNat n => rw [padded_injective h]
    | negSucc n => exact absurd h (padded_ne_dash_cons _ _ _)
  | negSucc m =>
    cases j with
    | ofNat n => exact absurd h.symm (padded_ne_dash_cons _ _ _)
    | negSucc n =>
      have hmn : m + 1 = n + 1 := padded_injective (List.cons.inj h).2
      have : m = n := by omega
      rw [this]

/-- A number that fits a width fills it. -/
theorem length_padded {width n : Nat} (hwidth : 0 < width) (h : n < 10 ^ width) :
    (padded width n).length = width := by
  have hle : (decimal n).length ≤ width :=
    (Nat.length_toDigits_le_iff (by decide) hwidth).mpr h
  unfold padded
  rw [List.length_append, List.length_replicate]
  omega

/-! ## 2. A run of digits -/

/-- A digit is the character of its value. -/
theorem digitChar_of_isDigit {c : Char} (h : c.isDigit = true) :
    c.toNat - '0'.toNat < 10 ∧ Nat.digitChar (c.toNat - '0'.toNat) = c := by
  have hcode := toNat_of_isDigit h
  have hzero : '0'.toNat = 48 := rfl
  have hvalue : c.toNat - '0'.toNat < 10 := by omega
  refine ⟨hvalue, Char.toNat_inj.mp ?_⟩
  rw [Nat.toNat_digitChar_of_lt_ten hvalue]
  omega

/-- One more digit behind a padded number. -/
theorem padded_succ {width n d : Nat} (hwidth : 0 < width) (hd : d < 10) :
    padded (width + 1) (10 * n + d) = padded width n ++ [Nat.digitChar d] := by
  have hdigit : decimal d = [Nat.digitChar d] := Nat.toDigits_of_lt_base hd
  rcases Nat.eq_zero_or_pos n with rfl | hn
  · have hzero : decimal 0 = ['0'] := rfl
    obtain ⟨width, rfl⟩ : ∃ w, width = w + 1 := ⟨width - 1, by omega⟩
    unfold padded
    rw [Nat.mul_zero, Nat.zero_add, hdigit, hzero]
    simp [List.replicate_succ']
  · have hsplit : decimal (10 * n + d) = decimal n ++ [Nat.digitChar d] := by
      have hdiv : (10 * n + d) / 10 = n := by omega
      have hmod : (10 * n + d) % 10 = d := by omega
      unfold decimal
      rw [Nat.toDigits_of_base_le (by decide) (by omega), hdiv, hmod]
    unfold padded
    rw [hsplit, List.length_append, List.length_singleton, Nat.add_sub_add_right,
      List.append_assoc]

/-- **A run of digits is the padded number that it is read as.** -/
theorem eq_padded_of_digits {ds : List Char} (hne : ds ≠ []) (h : ∀ c ∈ ds, c.isDigit = true) :
    ds = padded ds.length (Nat.ofDigitChars 10 ds 0) ∧
      Nat.ofDigitChars 10 ds 0 < 10 ^ ds.length := by
  induction ds using List.reverseRecOn with
  | nil => exact absurd rfl hne
  | append_singleton ds c ih =>
    obtain ⟨hvalue, hchar⟩ := digitChar_of_isDigit (h c (by simp))
    rw [List.length_append, List.length_singleton, Nat.ofDigitChars_append,
      Nat.ofDigitChars_cons, Nat.ofDigitChars_nil]
    cases ds with
    | nil =>
      have hdigit : decimal (c.toNat - '0'.toNat) = [c] := by
        rw [decimal, Nat.toDigits_of_lt_base hvalue, hchar]
      rw [Nat.ofDigitChars_nil, Nat.mul_zero, Nat.zero_add, padded, hdigit]
      exact ⟨rfl, hvalue⟩
    | cons d ds =>
      obtain ⟨htext, hbound⟩ := ih (List.cons_ne_nil d ds) fun e he =>
        h e (List.mem_append_left _ he)
      have hwidth : 0 < (d :: ds).length := Nat.zero_lt_succ _
      rw [padded_succ hwidth hvalue, hchar, ← htext, Nat.pow_succ]
      exact ⟨rfl, by omega⟩

end IrrigationLog.Text
