/-
# Quoted texts of settings files are read back

The writer of settings files quotes a text in one of four ways, and the reader finds out from
the marks which one it was.  Whatever the text, it is read back as it was, up to the end of its
line (`Toml.takeQuoted?_quoted`).

* **Within double quotes** a character other than a quote is written in one of three ways
  (`escapedChar_cases`) and read back from each (`takeBasic?_escapedChar`,
  `takeMultiBasic?_escapedChar`).  On one line every quote is escaped.  On several lines up to
  two quotes in a row stand as they are, so a text has to be cut into its runs of quotes: three
  quotes in a row are the end, and the last of five.
* **Within single quotes** nothing is escaped, so the writer takes this way only for texts
  without control characters and without runs that would end it (`longestRun`).
-/
import IrrigationLog.Data.Toml.Quoted

namespace IrrigationLog.Toml

/-! ## 1. Escapes -/

/-- Every control character has an escape in base sixteen. -/
theorem charOfHex?_control : ∀ n < 128,
    charOfHex? ['0', '0', upperHexDigit (n / 16), upperHexDigit (n % 16)]
      = some (Char.ofNat n) := by
  decide +kernel

theorem lt_of_isControl {c : Char} (h : isControl c = true) : c.toNat < 128 := by
  simp only [isControl, Bool.or_eq_true, Bool.and_eq_true, decide_eq_true_eq, beq_iff_eq] at h
  rcases h with h | rfl
  · omega
  · decide

/-- A control character is read back from its escape. -/
theorem charOfHex?_of_isControl {c : Char} (h : isControl c = true) :
    charOfHex? ['0', '0', upperHexDigit (c.toNat / 16), upperHexDigit (c.toNat % 16)]
      = some c := by
  rw [charOfHex?_control c.toNat (lt_of_isControl h), Char.ofNat_toNat]

/-- **How a character other than a quote is written**: by a short escape, by its number, or as it
is. -/
theorem escapedChar_cases (multi : Bool) (c : Char) :
    (∃ e, shortEscape? e = some c ∧ escapedChar multi c = ['\\', e]) ∨
    (isControl c = true ∧ escapedChar multi c =
      ['\\', 'u', '0', '0', upperHexDigit (c.toNat / 16), upperHexDigit (c.toNat % 16)]) ∨
    (escapedChar multi c = [c] ∧ c ≠ '\\' ∧ c ≠ '\r' ∧ ¬isControl c = true ∧
      (multi = false → c ≠ '\n')) := by
  unfold escapedChar
  split
  · subst c
    exact Or.inl ⟨'b', rfl, rfl⟩
  split
  · subst c
    exact Or.inl ⟨'t', rfl, rfl⟩
  split
  · subst c
    cases multi with
    | false => exact Or.inl ⟨'n', rfl, rfl⟩
    | true => exact Or.inr (Or.inr ⟨rfl, by decide, by decide, by decide, nofun⟩)
  split
  · subst c
    exact Or.inl ⟨'f', rfl, rfl⟩
  split
  · subst c
    exact Or.inl ⟨'r', rfl, rfl⟩
  split
  · subst c
    exact Or.inl ⟨'\\', rfl, rfl⟩
  split
  · rename_i hcontrol
    exact Or.inr (Or.inl ⟨hcontrol, rfl⟩)
  · rename_i hline _ hreturn hback hcontrol
    exact Or.inr (Or.inr ⟨rfl, hback, hreturn, hcontrol, fun _ => hline⟩)

/-- A text with a character in front, and what follows it. -/
def withChar (c : Char) (p : List Char × List Char) : List Char × List Char := (c :: p.1, p.2)

/-- What a short escape stands for is read back on one line. -/
theorem takeBasic?_short {e c : Char} (h : shortEscape? e = some c) (ds : List Char) :
    takeBasic? ('\\' :: e :: ds) = (takeBasic? ds).map (withChar c) := by
  rw [takeBasic?.eq_def]
  split
  · rename_i heq
    cases heq
  · rename_i heq
    cases heq
  · rename_i heq
    cases heq
    cases h
  · rename_i heq
    cases heq
    cases h
  · rename_i heq
    cases heq
    cases h
  · rename_i heq
    cases heq
    rw [h]
    cases takeBasic? ds <;> rfl
  · rename_i hshort heq
    cases heq
    exact (hshort e ds rfl rfl).elim

/-- So is a character that stands for itself. -/
theorem takeBasic?_self {c : Char} (hquote : c ≠ '"') (hback : c ≠ '\\') (hline : c ≠ '\n')
    (hcontrol : ¬isControl c = true) (ds : List Char) :
    takeBasic? (c :: ds) = (takeBasic? ds).map (withChar c) := by
  rw [takeBasic?.eq_def]
  split
  · rename_i heq
    cases heq
  · rename_i heq
    cases heq
    exact absurd rfl hquote
  · rename_i heq
    cases heq
    exact absurd rfl hback
  · rename_i heq
    cases heq
    exact absurd rfl hback
  · rename_i heq
    cases heq
    exact absurd rfl hback
  · rename_i heq
    cases heq
    exact absurd rfl hback
  · rename_i heq
    cases heq
    rw [if_neg (by rintro (h | h | h) <;> contradiction)]
    cases takeBasic? ds <;> rfl

/-- **A character is read back on one line.** -/
theorem takeBasic?_escapedChar {c : Char} (hc : c ≠ '"') (ds : List Char) :
    takeBasic? (escapedChar false c ++ ds) = (takeBasic? ds).map (withChar c) := by
  rcases escapedChar_cases false c with
    ⟨e, hshort, hwritten⟩ | ⟨hcontrol, hwritten⟩ | ⟨hwritten, hback, -, hcontrol, hline⟩
  · rw [hwritten]
    exact takeBasic?_short hshort ds
  · rw [hwritten]
    simp only [List.cons_append, List.nil_append]
    rw [takeBasic?, charOfHex?_of_isControl hcontrol]
    cases takeBasic? ds <;> rfl
  · rw [hwritten]
    exact takeBasic?_self hc hback (hline rfl) hcontrol ds

/-- **A text is read back on one line.** -/
theorem takeBasic?_basicBody (n : Nat) (cs rest : List Char) :
    takeBasic? (basicBody false n cs ++ '"' :: rest) = some (cs, rest) := by
  induction cs generalizing n with
  | nil => rfl
  | cons c cs ih =>
    rw [basicBody]
    split
    · subst c
      rw [if_neg (by simp), List.cons_append, List.cons_append, takeBasic?_short rfl, ih]
      rfl
    · rename_i hc
      rw [List.append_assoc, takeBasic?_escapedChar hc, ih]
      rfl

/-! ## 2. Double quotes on several lines -/

/-- A short escape is no backslash at the end of a line. -/
theorem restOfLineBlank_short {e c : Char} (h : shortEscape? e = some c) (ds : List Char) :
    restOfLineBlank (e :: ds) = false := by
  have hblank : (e == ' ' || e == '\t') = false := by
    rw [Bool.eq_false_iff]
    simp only [ne_eq, Bool.or_eq_true, beq_iff_eq]
    rintro (rfl | rfl) <;> cases h
  unfold restOfLineBlank
  rw [List.dropWhile_cons_of_neg (by rw [hblank]; exact Bool.false_ne_true)]
  split
  · rename_i heq
    cases heq
    cases h
  · rename_i heq
    cases heq
    cases h
  · rfl

/-- What a short escape stands for is read back. -/
theorem takeMultiBasic?_short {e c : Char} (h : shortEscape? e = some c) (ds : List Char) :
    takeMultiBasic? false ('\\' :: e :: ds) =
      (takeMultiBasic? false ds).map (withChar c) := by
  rw [takeMultiBasic?.eq_def]
  split
  · rename_i heq
    cases heq
  · rename_i heq
    cases heq
  · rename_i heq
    cases heq
    cases h
  · rename_i heq
    cases heq
    cases h
  · rename_i heq
    cases heq
    cases h
  · rename_i heq
    cases heq
    rw [restOfLineBlank_short h, if_neg Bool.false_ne_true, h]
    cases takeMultiBasic? false ds <;> rfl
  · rename_i heq
    cases heq
  · rename_i hshort _ heq
    cases heq
    exact (hshort e ds rfl rfl).elim

/-- So is a character that stands for itself; a quote does unless two more follow it. -/
theorem takeMultiBasic?_self {c : Char} {ds : List Char}
    (hquote : c = '"' → ∀ es, ds ≠ '"' :: '"' :: es) (hback : c ≠ '\\')
    (hcontrol : ¬isControl c = true) :
    takeMultiBasic? false (c :: ds) = (takeMultiBasic? false ds).map (withChar c) := by
  rw [takeMultiBasic?.eq_def]
  split
  · rename_i heq
    cases heq
  · rename_i heq
    cases heq
    exact absurd rfl (hquote rfl _)
  · rename_i heq
    cases heq
    exact absurd rfl hback
  · rename_i heq
    cases heq
    exact absurd rfl hback
  · rename_i heq
    cases heq
    exact absurd rfl hback
  · rename_i heq
    cases heq
    exact absurd rfl hback
  · rename_i heq
    cases heq
    exact absurd rfl hcontrol
  · rename_i heq
    cases heq
    rw [if_neg (by rintro (h | h) <;> contradiction), if_neg (by simp)]
    cases takeMultiBasic? false ds <;> rfl

/-- **A character is read back on several lines.** -/
theorem takeMultiBasic?_escapedChar {c : Char} (hc : c ≠ '"') (ds : List Char) :
    takeMultiBasic? false (escapedChar true c ++ ds) =
      (takeMultiBasic? false ds).map (withChar c) := by
  rcases escapedChar_cases true c with
    ⟨e, hshort, hwritten⟩ | ⟨hcontrol, hwritten⟩ | ⟨hwritten, hback, -, hcontrol, -⟩
  · rw [hwritten]
    exact takeMultiBasic?_short hshort ds
  · rw [hwritten]
    simp only [List.cons_append, List.nil_append]
    rw [takeMultiBasic?, charOfHex?_of_isControl hcontrol]
    cases takeMultiBasic? false ds <;> rfl
  · rw [hwritten]
    exact takeMultiBasic?_self (fun h => absurd h hc) hback hcontrol

/-- What a character is written as does not start with a quote. -/
theorem escapedChar_append_ne {c : Char} (hc : c ≠ '"') (multi : Bool) (ds es : List Char) :
    escapedChar multi c ++ ds ≠ '"' :: es := by
  intro heq
  rcases escapedChar_cases multi c with ⟨e, -, hwritten⟩ | ⟨-, hwritten⟩ | ⟨hwritten, -⟩
  · rw [hwritten] at heq
    cases heq
  · rw [hwritten] at heq
    cases heq
  · rw [hwritten] at heq
    exact hc (List.cons.inj heq).1

/-- A text that does not go on with a quote. -/
def NoQuote (q : Char) (rest : List Char) : Prop := ∀ es, rest ≠ q :: es

theorem closing_none {q : Char} {rest : List Char} (h : NoQuote q rest) :
    closing q rest = ([], rest) := by
  rcases rest with _ | ⟨a, cs⟩
  · rfl
  have ha : a ≠ q := by
    rintro rfl
    exact h cs rfl
  rcases cs with _ | ⟨b, cs⟩
  · exact if_neg ha
  · have hab : ¬(a = q ∧ b = q) := fun h => ha h.1
    rw [closing, if_neg hab, if_neg ha]

theorem closing_one {q : Char} {rest : List Char} (h : NoQuote q rest) :
    closing q (q :: rest) = ([q], rest) := by
  rcases rest with _ | ⟨b, cs⟩
  · exact if_pos rfl
  · have hab : ¬(q = q ∧ b = q) := by
      rintro ⟨-, rfl⟩
      exact h cs rfl
    rw [closing, if_neg hab, if_pos rfl]

theorem closing_two (q : Char) (rest : List Char) :
    closing q (q :: q :: rest) = ([q, q], rest) := if_pos ⟨rfl, rfl⟩

/-- A character other than a quote ends a run of quotes. -/
theorem basicBody_cons {c : Char} (hc : c ≠ '"') (n : Nat) (cs : List Char) :
    basicBody true n (c :: cs) = escapedChar true c ++ basicBody true 0 cs := by
  rw [basicBody, if_neg hc]

/-- A quote that is followed by anything but two quotes stands for itself. -/
theorem takeMultiBasic?_quote {ds : List Char} (h : ∀ es, ds ≠ '"' :: '"' :: es) :
    takeMultiBasic? false ('"' :: ds) = (takeMultiBasic? false ds).map (withChar '"') :=
  takeMultiBasic?_self (fun _ => h) (by decide) (by decide)

/-- **A text is read back on several lines.**  It is gone through run by run of quotes: a run of
up to two ends before a character that is none, and a third quote is escaped. -/
theorem takeMultiBasic?_basicBody {rest : List Char} (hrest : NoQuote '"' rest)
    (cs : List Char) :
    takeMultiBasic? false (basicBody true 0 cs ++ '"' :: '"' :: '"' :: rest)
      = some (cs, rest) := by
  induction hlength : cs.length using Nat.strongRecOn generalizing cs with
  | ind n ih =>
    subst hlength
    have hshorter (m : Nat) (ds : List Char) : ds.length < ds.length + (m + 1) := by omega
    -- after a run of `n` quotes
    have hother (n : Nat) {c : Char} {ds : List Char} (hc : c ≠ '"')
        (hds : ds.length < cs.length) :
        takeMultiBasic? false (basicBody true n (c :: ds) ++ '"' :: '"' :: '"' :: rest)
          = some (c :: ds, rest) := by
      rw [basicBody_cons hc, List.append_assoc, takeMultiBasic?_escapedChar hc, ih _ hds _ rfl]
      rfl
    have hends (n : Nat) {c : Char} (ds : List Char) (hc : c ≠ '"') (es : List Char) :
        basicBody true n (c :: ds) ++ '"' :: '"' :: '"' :: rest ≠ '"' :: es := by
      rw [basicBody_cons hc, List.append_assoc]
      exact escapedChar_append_ne hc true _ es
    rcases cs with _ | ⟨a, cs⟩
    · exact congrArg some (closing_none hrest)
    by_cases ha : a = '"'
    · subst ha
      rcases cs with _ | ⟨b, cs⟩
      · exact congrArg some (closing_one hrest)
      by_cases hb : b = '"'
      · subst hb
        rcases cs with _ | ⟨c, cs⟩
        · exact congrArg some (closing_two '"' rest)
        by_cases hc : c = '"'
        · subst hc
          change takeMultiBasic? false ('"' :: '"' :: '\\' :: '"' ::
            (basicBody true 0 cs ++ '"' :: '"' :: '"' :: rest)) = _
          rw [takeMultiBasic?_quote (by simp), takeMultiBasic?_quote (by simp),
            takeMultiBasic?_short rfl, ih cs.length (hshorter 2 cs) cs rfl]
          rfl
        · change takeMultiBasic? false ('"' :: '"' ::
            (basicBody true 2 (c :: cs) ++ '"' :: '"' :: '"' :: rest)) = _
          have hone := hends 2 cs hc
          rw [takeMultiBasic?_quote fun es h => hone es (List.cons.inj h).2,
            takeMultiBasic?_quote fun es => hone _, hother 2 hc (hshorter 2 cs)]
          rfl
      · change takeMultiBasic? false ('"' ::
          (basicBody true 1 (b :: cs) ++ '"' :: '"' :: '"' :: rest)) = _
        rw [takeMultiBasic?_quote fun es => hends 1 cs hb _, hother 1 hb (hshorter 1 cs)]
        rfl
    · exact hother 0 ha (hshorter 0 cs)

/-! ## 3. Single quotes -/

/-- A text without the character and without controls is read back on one line. -/
theorem takeLiteral?_append {cs : List Char} (hquote : apostrophe ∉ cs) (hline : '\n' ∉ cs)
    (hcontrol : ∀ c ∈ cs, ¬isControl c = true) (rest : List Char) :
    takeLiteral? (cs ++ apostrophe :: rest) = some (cs, rest) := by
  have hplain : ∀ c ∈ cs, (c != apostrophe && c != '\n' && !isControl c) = true := by
    intro c hc
    have h1 : c ≠ apostrophe := fun h => hquote (h ▸ hc)
    have h2 : c ≠ '\n' := fun h => hline (h ▸ hc)
    simp [h1, h2, hcontrol c hc]
  unfold takeLiteral?
  dsimp only
  rw [List.dropWhile_append_of_pos hplain, List.takeWhile_append_of_pos hplain,
    List.dropWhile_cons_of_neg (by decide), List.takeWhile_cons_of_neg (by decide),
    List.append_nil]
  exact if_pos rfl

theorem longestRun_tail_le (q c : Char) (cs : List Char) :
    longestRun q cs ≤ longestRun q (c :: cs) := Nat.le_max_right _ _

/-- Three in a row are a run of at least three. -/
theorem three_le_longestRun (q : Char) (cs : List Char) :
    3 ≤ longestRun q (q :: q :: q :: cs) := by
  refine Nat.le_trans ?_ (Nat.le_max_left _ _)
  simp

theorem not_mem_of_longestRun {q : Char} {cs : List Char} (h : longestRun q cs = 0) :
    q ∉ cs := by
  induction cs with
  | nil => exact List.not_mem_nil
  | cons c cs ih =>
    have hrest : longestRun q cs = 0 := by
      have := longestRun_tail_le q c cs
      omega
    have hc : c ≠ q := by
      rintro rfl
      have hself : ((c :: cs).takeWhile (· == c)).length ≤ longestRun c (c :: cs) :=
        Nat.le_max_left _ _
      simp only [List.takeWhile_cons, beq_self_eq_true, if_true, List.length_cons] at hself
      omega
    intro hmem
    rcases List.mem_cons.mp hmem with rfl | hmem
    · exact hc rfl
    · exact ih hrest hmem

/-- A character stands for itself; a quote does unless two more follow it. -/
theorem takeMultiLiteral?_self {c : Char} {ds : List Char}
    (hquote : c = apostrophe → ∀ es, ds ≠ apostrophe :: apostrophe :: es)
    (hcontrol : ¬isControl c = true) :
    takeMultiLiteral? (c :: ds) = (takeMultiLiteral? ds).map (withChar c) := by
  rw [takeMultiLiteral?.eq_def]
  split
  · rename_i heq
    cases heq
  · rename_i heq
    cases heq
    exact absurd rfl (hquote rfl _)
  · rename_i heq
    cases heq
    exact absurd rfl hcontrol
  · rename_i heq
    cases heq
    rw [if_neg hcontrol]
    cases takeMultiLiteral? ds <;> rfl

/-- **A text without controls and without long runs is read back** on several lines. -/
theorem takeMultiLiteral?_append {cs rest : List Char} (hrest : NoQuote apostrophe rest)
    (hrun : longestRun apostrophe cs ≤ 2) (hcontrol : ∀ c ∈ cs, ¬isControl c = true) :
    takeMultiLiteral? (cs ++ apostrophe :: apostrophe :: apostrophe :: rest)
      = some (cs, rest) := by
  induction cs with
  | nil => exact congrArg some (closing_none hrest)
  | cons c cs ih =>
    by_cases hone : c :: cs = [apostrophe]
    · rw [hone]
      exact congrArg some (closing_one hrest)
    by_cases htwo : c :: cs = [apostrophe, apostrophe]
    · rw [htwo]
      exact congrArg some (closing_two apostrophe rest)
    have hquote : c = apostrophe → ∀ es,
        cs ++ apostrophe :: apostrophe :: apostrophe :: rest
          ≠ apostrophe :: apostrophe :: es := by
      rintro rfl es heq
      rcases cs with _ | ⟨d, _ | ⟨e, cs⟩⟩
      · exact hone rfl
      · cases heq
        exact htwo rfl
      · cases heq
        have := three_le_longestRun apostrophe cs
        omega
    rw [List.cons_append, takeMultiLiteral?_self hquote (hcontrol c List.mem_cons_self),
      ih (Nat.le_trans (longestRun_tail_le _ _ _) hrun) fun d hd =>
        hcontrol d (List.mem_cons_of_mem _ hd)]
    rfl

/-! ## 4. All ways -/

theorem not_isControl_of_any {cs : List Char} (h : (!cs.any isControl) = true) :
    ∀ c ∈ cs, ¬isControl c = true := by
  intro c hc hcontrol
  rw [List.any_eq_true.mpr ⟨c, hc, hcontrol⟩] at h
  cases h

/-- Texts within single quotes on one line. -/
theorem of_quotingOf_literal {cs : List Char} (h : quotingOf cs = .literal) :
    apostrophe ∉ cs ∧ '\n' ∉ cs ∧ ∀ c ∈ cs, ¬isControl c = true := by
  simp only [quotingOf] at h
  repeat' split at h
  all_goals try cases h
  rename_i hliteral
  simp only [Bool.and_eq_true, decide_eq_true_eq] at hliteral
  obtain ⟨⟨hcontrol, hline⟩, hrun⟩ := hliteral
  refine ⟨not_mem_of_longestRun hrun, ?_, not_isControl_of_any hcontrol⟩
  simpa using hline

/-- Texts within single quotes on several lines. -/
theorem of_quotingOf_multiLiteral {cs : List Char} (h : quotingOf cs = .multiLiteral) :
    longestRun apostrophe cs ≤ 2 ∧ ∀ c ∈ cs, ¬isControl c = true := by
  simp only [quotingOf] at h
  repeat' split at h
  all_goals try cases h
  rename_i hliteral
  simp only [Bool.and_eq_true, decide_eq_true_eq] at hliteral
  exact ⟨hliteral.2, not_isControl_of_any hliteral.1⟩

/-- A text quoted on one line is read as such. -/
theorem takeQuoted?_of_line {cs : List Char} (hdouble : ∀ ds, cs ≠ '"' :: '"' :: '"' :: ds)
    (hsingle : ∀ ds, cs ≠ apostrophe :: apostrophe :: apostrophe :: ds) :
    takeQuoted? cs = takeLineQuoted? cs := by
  rw [takeQuoted?.eq_def]
  split
  · exact absurd rfl (hdouble _)
  · exact absurd rfl (hsingle _)
  · rfl

/-- What does not start with a line end is left as it is. -/
theorem dropNewline_eq_self {cs : List Char} (h : ∀ c ∈ cs.head?, c ≠ '\n' ∧ c ≠ '\r') :
    dropNewline cs = cs := by
  unfold dropNewline
  split
  · exact absurd rfl (h _ rfl).1
  · exact absurd rfl (h _ rfl).2
  · rfl

/-- Of a text with line feeds the one after the marks is let go, and no other. -/
theorem dropNewline_leadingNewline {cs body : List Char}
    (h : '\n' ∉ cs → ∀ c ∈ body.head?, c ≠ '\n' ∧ c ≠ '\r') :
    dropNewline (leadingNewline cs ++ body) = body := by
  unfold leadingNewline
  split
  · rfl
  · rename_i hline
    exact dropNewline_eq_self (h (by simpa using hline))

/-- On several lines only a line feed is written as a line end. -/
theorem head_escapedChar {c : Char} (hc : c ≠ '\n') :
    ∃ d ds, escapedChar true c = d :: ds ∧ d ≠ '\n' ∧ d ≠ '\r' := by
  rcases escapedChar_cases true c with ⟨e, -, hwritten⟩ | ⟨-, hwritten⟩ | ⟨hwritten, -, hreturn, -⟩
  · exact ⟨_, _, hwritten, by decide, by decide⟩
  · exact ⟨_, _, hwritten, by decide, by decide⟩
  · exact ⟨c, [], hwritten, hc, hreturn⟩

variable (cs rest : List Char)

theorem noQuote_newline {q : Char} (hq : q ≠ '\n') : NoQuote q ('\n' :: rest) := by
  intro es heq
  exact hq (List.cons.inj heq).1.symm

theorem takeQuoted?_basic :
    takeQuoted? ('"' :: (basicBody false 0 cs ++ '"' :: '\n' :: rest))
      = some (cs, '\n' :: rest) := by
  rw [takeQuoted?_of_line]
  · exact takeBasic?_basicBody 0 cs ('\n' :: rest)
  · intro ds heq
    rcases cs with _ | ⟨c, cs⟩
    · cases heq
    · have hbody := (List.cons.inj heq).2
      by_cases hc : c = '"'
      · subst hc
        cases hbody
      · rw [basicBody, if_neg hc, List.append_assoc] at hbody
        exact escapedChar_append_ne hc _ _ _ hbody
  · intro ds heq
    cases heq

theorem takeQuoted?_multiBasic :
    takeQuoted? ('"' :: '"' :: '"' :: (leadingNewline cs ++
      (basicBody true 0 cs ++ '"' :: '"' :: '"' :: '\n' :: rest))) = some (cs, '\n' :: rest) := by
  have hdrop : dropNewline (leadingNewline cs ++
      (basicBody true 0 cs ++ '"' :: '"' :: '"' :: '\n' :: rest))
      = basicBody true 0 cs ++ '"' :: '"' :: '"' :: '\n' :: rest := by
    refine dropNewline_leadingNewline fun hline d hd => ?_
    rcases cs with _ | ⟨c, cs⟩
    · cases hd
      decide
    by_cases hc : c = '"'
    · subst hc
      cases hd
      decide
    · have hfeed : c ≠ '\n' := fun h => hline (h ▸ List.mem_cons_self)
      obtain ⟨e, es, hes, he⟩ := head_escapedChar hfeed
      rw [basicBody_cons hc, hes] at hd
      cases hd
      exact he
  change takeMultiBasic? false (dropNewline _) = _
  rw [hdrop, takeMultiBasic?_basicBody (noQuote_newline rest (by decide))]

variable {cs}

theorem takeQuoted?_literal (h : quotingOf cs = .literal) :
    takeQuoted? (apostrophe :: (cs ++ apostrophe :: '\n' :: rest)) = some (cs, '\n' :: rest) := by
  obtain ⟨hquote, hline, hcontrol⟩ := of_quotingOf_literal h
  rw [takeQuoted?_of_line]
  · exact takeLiteral?_append hquote hline hcontrol ('\n' :: rest)
  · intro ds heq
    cases heq
  · intro ds heq
    rcases cs with _ | ⟨c, cs⟩
    · cases heq
    · have hc : c = apostrophe := (List.cons.inj (List.cons.inj heq).2).1
      exact hquote (hc ▸ List.mem_cons_self)

theorem takeQuoted?_multiLiteral (h : quotingOf cs = .multiLiteral) :
    takeQuoted? (apostrophe :: apostrophe :: apostrophe :: (leadingNewline cs ++
      (cs ++ apostrophe :: apostrophe :: apostrophe :: '\n' :: rest)))
      = some (cs, '\n' :: rest) := by
  obtain ⟨hrun, hcontrol⟩ := of_quotingOf_multiLiteral h
  have hdrop : dropNewline (leadingNewline cs ++
      (cs ++ apostrophe :: apostrophe :: apostrophe :: '\n' :: rest))
      = cs ++ apostrophe :: apostrophe :: apostrophe :: '\n' :: rest := by
    refine dropNewline_leadingNewline fun hline d hd => ?_
    rcases cs with _ | ⟨c, cs⟩
    · cases hd
      decide
    · cases hd
      have hplain := hcontrol d List.mem_cons_self
      refine ⟨fun h => hline (h ▸ List.mem_cons_self), ?_⟩
      rintro rfl
      exact hplain (by decide)
  change takeMultiLiteral? (dropNewline _) = _
  rw [hdrop, takeMultiLiteral?_append (noQuote_newline rest (by decide)) hrun hcontrol]

/-- **Every text is read back**, up to the end of its line. -/
theorem takeQuoted?_quoted (cs rest : List Char) :
    takeQuoted? (quoted cs ++ '\n' :: rest) = some (cs, '\n' :: rest) := by
  unfold quoted
  split
  · simpa using takeQuoted?_basic cs rest
  · rename_i hway
    simpa using takeQuoted?_literal rest hway
  · simpa [List.replicate] using takeQuoted?_multiBasic cs rest
  · rename_i hway
    simpa [List.replicate] using takeQuoted?_multiLiteral rest hway

end IrrigationLog.Toml
