/-
# Blank characters and trimming

Columns of a partition line, dates typed by an operator and messages are trimmed before they
are read.  What counts as blank is the Unicode property White_Space, twenty-five characters
in all; nothing else is ever taken off an end.

* `trim` takes blanks off both ends;
* `trimEndWhile` takes the characters of a given class off the end only, all that stand there
  (`exists_eq_trimEndWhile_append`, `eq_false_of_mem_getLast?_trimEndWhile`);
* `trim_eq_self`: text that neither starts nor ends with a blank is left as it is.
-/

namespace IrrigationLog.Text

/-! ## 1. The class -/

/-- The characters with the Unicode property White_Space. -/
def isBlank (c : Char) : Bool :=
  ('\t' ≤ c && c ≤ '\x0d') || c == ' ' || c == '\u0085' || c == '\u00a0' || c == '\u1680' ||
    ('\u2000' ≤ c && c ≤ '\u200a') || c == '\u2028' || c == '\u2029' || c == '\u202f' ||
    c == '\u205f' || c == '\u3000'

/-- No blank has a code between those of the ASCII blanks and of the next line mark. -/
theorem toNat_of_isBlank {c : Char} (h : isBlank c = true) : c.toNat ≤ 32 ∨ 133 ≤ c.toNat := by
  simp only [isBlank, Bool.or_eq_true, Bool.and_eq_true, decide_eq_true_eq, beq_iff_eq,
    Char.le_def, UInt32.le_iff_toNat_le] at h
  rcases h with (((((((((h | rfl) | rfl) | rfl) | rfl) | h) | rfl) | rfl) | rfl) | rfl) | rfl
  · have hle : c.toNat ≤ 13 := h.2
    omega
  · decide
  · decide
  · decide
  · decide
  · have hle : 8192 ≤ c.toNat := h.1
    omega
  · decide
  · decide
  · decide
  · decide
  · decide

/-! ## 2. Trimming -/

/-- Takes the characters of a class off the end. -/
def trimEndWhile (p : Char → Bool) (cs : List Char) : List Char :=
  (cs.reverse.dropWhile p).reverse

/-- Takes the blanks off both ends. -/
def trim (cs : List Char) : List Char :=
  trimEndWhile isBlank (cs.dropWhile isBlank)

/-- What is taken off the end is of the class. -/
theorem exists_eq_trimEndWhile_append (p : Char → Bool) (cs : List Char) :
    ∃ ends, cs = trimEndWhile p cs ++ ends ∧ ∀ c ∈ ends, p c = true := by
  refine ⟨(cs.reverse.takeWhile p).reverse, ?_, fun c hc => ?_⟩
  · rw [trimEndWhile, ← List.reverse_append, List.takeWhile_append_dropWhile, List.reverse_reverse]
  · exact List.all_eq_true.mp List.all_takeWhile c (List.mem_reverse.mp hc)

/-- What is left does not end in the class. -/
theorem eq_false_of_mem_getLast?_trimEndWhile {p : Char → Bool} {cs : List Char} :
    ∀ c ∈ (trimEndWhile p cs).getLast?, p c = false := by
  intro c hc
  rw [trimEndWhile, List.getLast?_reverse] at hc
  simpa [Option.mem_def.mp hc] using List.head?_dropWhile_not p cs.reverse

/-- Characters of the class at an end make no difference. -/
theorem trimEndWhile_append {p : Char → Bool} {ends : List Char} (h : ∀ c ∈ ends, p c = true)
    (cs : List Char) : trimEndWhile p (cs ++ ends) = trimEndWhile p cs := by
  rw [trimEndWhile, List.reverse_append,
    List.dropWhile_append_of_pos fun c hc => h c (List.mem_reverse.mp hc), trimEndWhile]

/-- Text without a blank at its end keeps its end. -/
theorem trimEndWhile_eq_self {p : Char → Bool} {cs : List Char}
    (h : ∀ c ∈ cs.getLast?, p c = false) : trimEndWhile p cs = cs := by
  unfold trimEndWhile
  cases hr : cs.reverse with
  | nil => simpa using (congrArg List.reverse hr).symm
  | cons c r =>
    have hc : p c = false := h c (by rw [← List.head?_reverse, hr]; rfl)
    rw [List.dropWhile_cons_of_neg (by simp [hc]), ← hr, List.reverse_reverse]

/-- Text with no blank at either end is left as it is. -/
theorem trim_eq_self {cs : List Char} (hs : ∀ c ∈ cs.head?, isBlank c = false)
    (he : ∀ c ∈ cs.getLast?, isBlank c = false) : trim cs = cs := by
  have : cs.dropWhile isBlank = cs := by
    cases cs with
    | nil => rfl
    | cons c r => exact List.dropWhile_cons_of_neg (by simp [hs c rfl])
  rw [trim, this, trimEndWhile_eq_self he]

end IrrigationLog.Text
