/-
# Settings files are read back

The reader of settings files takes every TOML document, the writer makes documents of one kind:
pairs at the top, then tables of pairs.  A document of that kind is read back as the data that
it stands for (`Toml.read?_text`), provided that it can be written down at all
(`Document.WellFormed`): its keys are bare, no key comes twice in a table, and its numbers are
ones that the format can hold.

* **Values** are read up to the end of their line (`takeValue?_written`).
* **Lines** are read one by one, and the empty line before a header is passed over
  (`reads_text`).
* **Entries** with a new key go to the end of their table, and tables with a new name to the
  end of the document (`foldlM_tables`).
-/
import IrrigationLog.Data.Toml.Document
import IrrigationLog.Proofs.JsonText
import IrrigationLog.Proofs.QuotedText

namespace IrrigationLog.Toml

open Text

/-! ## 1. Numbers -/

/-- A numeral has no underscores to leave out. -/
theorem plainDigits?_decimal (n : Nat) : plainDigits? (decimal n) = some (decimal n) := by
  have hcut : cutAt (· == '_') (decimal n) = [decimal n] := by
    refine cutAt_eq_singleton fun c hc => ?_
    have hdigit := isDigit_of_mem_decimal hc
    rw [beq_eq_false_iff_ne]
    rintro rfl
    cases hdigit
  have hall : (decimal n).all Char.isDigit = true :=
    List.all_eq_true.mpr fun _ h => isDigit_of_mem_decimal h
  have hrun : digitRun? Char.isDigit (decimal n) = some (decimal n) := by
    unfold digitRun?
    rw [hcut]
    simp [hall, decimal_ne_nil]
  have hzero : ¬((decimal n).head? = some '0' ∧ decimal n ≠ ['0']) := by
    rintro ⟨hhead, hne⟩
    rw [Json.eq_zero_of_head_decimal hhead] at hne
    exact hne rfl
  unfold plainDigits?
  rw [hrun, Option.bind_some, if_neg hzero]

/-- A numeral is no number of another base. -/
theorem integer?_of_plain {cs : List Char} (h : ∀ c ds, cs ≠ '0' :: c :: ds) :
    integer? cs = (plainDigits? (cutSign cs).2).map fun ds =>
      let n := Nat.ofDigitChars 10 ds 0
      if (cutSign cs).1 then -(n : Int) else n := by
  rw [integer?.eq_def]
  split
  · exact absurd rfl (h _ _)
  · exact absurd rfl (h _ _)
  · exact absurd rfl (h _ _)
  · rfl

theorem cutSign_decimal (n : Nat) : cutSign (decimal n) = (false, decimal n) := by
  unfold cutSign
  split
  · rename_i heq
    exact absurd (head_decimal_isDigit heq) (by decide)
  · rename_i heq
    exact absurd (head_decimal_isDigit heq) (by decide)
  · rfl

/-- **A number is read back.** -/
theorem integer?_signed (i : Int) : integer? (signed i) = some i := by
  have hvalue (n : Nat) : Nat.ofDigitChars 10 (decimal n) 0 = n := Nat.ofDigitChars_ten_toDigits
  cases i with
  | ofNat n =>
    have hplain : ∀ c ds, decimal n ≠ '0' :: c :: ds := by
      intro c ds heq
      have hzero := Json.eq_zero_of_head_decimal (n := n) (by rw [heq]; rfl)
      subst hzero
      cases heq
    have hsigned : signed (.ofNat n) = decimal n := rfl
    rw [hsigned, integer?_of_plain hplain, cutSign_decimal, plainDigits?_decimal,
      Option.map_some, hvalue]
    rfl
  | negSucc n =>
    have hsigned : signed (.negSucc n) = '-' :: decimal (n + 1) := rfl
    have hsign : cutSign ('-' :: decimal (n + 1)) = (true, decimal (n + 1)) := rfl
    rw [hsigned, integer?_of_plain (by simp), hsign, plainDigits?_decimal, Option.map_some, hvalue]
    rfl

/-- What the text of a number starts with. -/
theorem head_signed (i : Int) :
    ∃ c cs, signed i = c :: cs ∧ (c.isDigit = true ∨ c = '-') := by
  cases i with
  | ofNat n =>
    obtain ⟨c, cs, hcons⟩ := List.exists_cons_of_ne_nil (decimal_ne_nil n)
    exact ⟨c, cs, hcons, Or.inl (head_decimal_isDigit hcons)⟩
  | negSucc n => exact ⟨'-', _, rfl, Or.inr rfl⟩

/-- No other character than a digit or a minus sign is at the start of a number. -/
theorem ne_of_head {c d : Char} (hc : c.isDigit = true ∨ c = '-') (hdigit : d.isDigit = false)
    (hminus : d ≠ '-') : c ≠ d := by
  rintro rfl
  rcases hc with hc | hc
  · rw [hdigit] at hc
    cases hc
  · exact hminus hc

/-- Nothing that starts otherwise starts with a number. -/
theorem signed_append_ne (i : Int) {d : Char} (hdigit : d.isDigit = false) (hminus : d ≠ '-')
    (cs ds : List Char) : signed i ++ cs ≠ d :: ds := by
  obtain ⟨c, es, hcons, hhead⟩ := head_signed i
  rw [hcons]
  intro heq
  exact ne_of_head hhead hdigit hminus (List.cons.inj heq).1

theorem scalar?_signed {i : Int} (h : fits i = true) : scalar? (signed i) = some (.int i) := by
  have hword (d : Char) (ds : List Char) (hdigit : d.isDigit = false) (hminus : d ≠ '-') :
      signed i ≠ d :: ds := by
    have hne := signed_append_ne i hdigit hminus [] ds
    rwa [List.append_nil] at hne
  unfold scalar?
  rw [if_neg (hword 't' _ rfl (by decide)), if_neg (hword 'f' _ rfl (by decide)),
    integer?_signed]
  exact if_pos h

/-- What ends an unquoted value of this program. -/
def Ends (rest : List Char) : Prop :=
  ∃ c cs, rest = c :: cs ∧ (c = '\n' ∨ c = ',' ∨ c = ']')

theorem isScalarChar_of_mem_signed {i : Int} {c : Char} (h : c ∈ signed i) :
    isScalarChar c = true := by
  have hdigit {n : Nat} (hc : c ∈ decimal n) : isScalarChar c = true := by
    have hc := isDigit_of_mem_decimal hc
    simp [isScalarChar, Char.isAlphanum, hc]
  cases i with
  | ofNat n => exact hdigit h
  | negSucc n =>
    rcases List.mem_cons.mp h with rfl | h
    · decide
    · exact hdigit h

/-- A number is read up to what ends it. -/
theorem takeScalar?_signed {i : Int} {rest : List Char} (h : fits i = true) (hrest : Ends rest) :
    takeScalar? (signed i ++ rest) = some (.int i, rest) := by
  obtain ⟨c, cs, rfl, hc⟩ := hrest
  have hstop : isScalarChar c = false ∧ c ≠ ' ' := by
    rcases hc with rfl | rfl | rfl <;> decide
  have hall : ∀ d ∈ signed i, isScalarChar d = true := fun _ hd => isScalarChar_of_mem_signed hd
  have htake : (signed i ++ c :: cs).takeWhile isScalarChar = signed i := by
    rw [List.takeWhile_append_of_pos hall, List.takeWhile_cons_of_neg (by simp [hstop.1]),
      List.append_nil]
  have hdrop : (signed i ++ c :: cs).dropWhile isScalarChar = c :: cs := by
    rw [List.dropWhile_append_of_pos hall, List.dropWhile_cons_of_neg (by simp [hstop.1])]
  unfold takeScalar?
  dsimp only
  rw [htake, hdrop]
  split
  · rename_i heq
    exact absurd (List.cons.inj heq).1 hstop.2
  · rw [scalar?_signed h]
    rfl

/-! ## 2. Values -/

/-- A value that the format can hold. -/
def Item.Fits : Item → Prop
  | .number i => fits i = true
  | .text _ => True
  | .numbers is => ∀ i ∈ is, fits i = true

variable {n : Nat} {rest : List Char}

theorem takeValue?_signed {i : Int} (h : fits i = true) (hrest : Ends rest) :
    takeValue? (n + 1) (signed i ++ rest) = some (.value (.int i), rest) := by
  have hnot (d : Char) (ds : List Char) (hdigit : d.isDigit = false) (hminus : d ≠ '-') :
      signed i ++ rest ≠ d :: ds := signed_append_ne i hdigit hminus rest ds
  rw [takeValue?, takeScalar?_signed h hrest]
  · rfl
  · exact fun ds => hnot _ ds rfl (by decide)
  · exact fun ds => hnot _ ds rfl (by decide)
  · exact fun ds => hnot _ ds rfl (by decide)
  · exact fun ds => hnot _ ds rfl (by decide)

/-- Nothing is passed over before a character that is no filler. -/
theorem skipFiller?_cons {c : Char} (cs : List Char) (hline : c ≠ '\n') (hreturn : c ≠ '\r')
    (hblank : ¬(c = ' ' ∨ c = '\t')) (hcomment : c ≠ '#') :
    skipFiller? false (c :: cs) = some (c :: cs) := by
  rw [skipFiller?, if_neg hline, if_neg Bool.false_ne_true, if_neg hblank, if_neg hcomment]
  exact fun ds heq _ => hreturn heq

theorem skipFiller?_signed (i : Int) (rest : List Char) :
    skipFiller? false (signed i ++ rest) = some (signed i ++ rest) := by
  obtain ⟨c, cs, hcons, hhead⟩ := head_signed i
  have hnot (d : Char) (hdigit : d.isDigit = false) (hminus : d ≠ '-') : c ≠ d :=
    ne_of_head hhead hdigit hminus
  rw [hcons, List.cons_append]
  refine skipFiller?_cons _ (hnot _ rfl (by decide)) (hnot _ rfl (by decide)) ?_
    (hnot _ rfl (by decide))
  rintro (h | h)
  · exact hnot _ rfl (by decide) h
  · exact hnot _ rfl (by decide) h

section Items

variable {i : Int} {cs ds : List Char}

/-- The last number of a list is followed by the bracket. -/
theorem takeItems?_last (hi : fits i = true)
    (hskip : skipFiller? false cs = some (signed i ++ ']' :: rest)) :
    takeItems? (n + 2) cs = some ([.int i], rest) := by
  have hends : Ends (']' :: rest) := ⟨']', rest, rfl, Or.inr (Or.inr rfl)⟩
  rw [takeItems?, hskip, Option.bind_eq_bind, Option.bind_some]
  split
  · exact absurd ‹_› (signed_append_ne i rfl (by decide) _ _)
  · rw [takeValue?_signed hi hends]
    rfl

/-- A comma stands before what follows. -/
theorem takeItems?_next {items : List Data} (hi : fits i = true)
    (hskip : skipFiller? false cs = some (signed i ++ ',' :: ds))
    (hitems : takeItems? (n + 1) ds = some (items, rest)) :
    takeItems? (n + 2) cs = some (.int i :: items, rest) := by
  have hends : Ends (',' :: ds) := ⟨',', ds, rfl, Or.inr (Or.inl rfl)⟩
  rw [takeItems?, hskip, Option.bind_eq_bind, Option.bind_some]
  split
  · exact absurd ‹_› (signed_append_ne i rfl (by decide) _ _)
  · rw [takeValue?_signed hi hends]
    change (takeItems? (n + 1) ds).bind _ = _
    rw [hitems]
    rfl

end Items

/-- A line for every number. -/
def itemLines (is : List Int) : List Char :=
  is.flatMap fun i => List.replicate 4 ' ' ++ signed i ++ [',', '\n']

/-- Numbers on lines of their own are read up to the bracket. -/
theorem takeItems?_itemLines {is : List Int} (h : ∀ i ∈ is, fits i = true)
    (hn : is.length < n) :
    takeItems? n ('\n' :: (itemLines is ++ ']' :: rest)) = some (is.map Data.int, rest) := by
  induction is generalizing n with
  | nil =>
    obtain ⟨n, rfl⟩ : ∃ m, n = m + 1 := ⟨n - 1, by omega⟩
    rfl
  | cons i is ih =>
    rw [List.length_cons] at hn
    obtain ⟨n, rfl⟩ : ∃ m, n = m + 2 := ⟨n - 2, by omega⟩
    have htext : '\n' :: (itemLines (i :: is) ++ ']' :: rest) = '\n' :: ' ' :: ' ' :: ' ' :: ' ' ::
        (signed i ++ ',' :: '\n' :: (itemLines is ++ ']' :: rest)) := by
      simp [itemLines, List.replicate]
    have hskip : skipFiller? false ('\n' :: (itemLines (i :: is) ++ ']' :: rest))
        = some (signed i ++ ',' :: '\n' :: (itemLines is ++ ']' :: rest)) := by
      rw [htext]
      exact skipFiller?_signed i _
    exact takeItems?_next (h i List.mem_cons_self) hskip
      (@ih (n + 1) (fun j hj => h j (List.mem_cons_of_mem _ hj)) (by omega))

theorem length_le_itemLines (is : List Int) : is.length ≤ (itemLines is).length := by
  induction is with
  | nil => exact Nat.le_refl _
  | cons i is ih =>
    have hcons : itemLines (i :: is)
        = List.replicate 4 ' ' ++ signed i ++ [',', '\n'] ++ itemLines is := by
      simp [itemLines]
    rw [hcons, List.length_append, List.length_append, List.length_append, List.length_cons,
      List.length_replicate]
    omega

/-- A list of numbers is read up to its bracket. -/
theorem takeValue?_numbers {is : List Int} (h : ∀ i ∈ is, fits i = true)
    (hn : (Item.numbers is).written.length < n) :
    takeValue? (n + 1) ((Item.numbers is).written ++ rest) =
      some (.value (.ints is), rest) := by
  obtain ⟨n, rfl⟩ : ∃ m, n = m + 1 := ⟨n - 1, by omega⟩
  rcases is with _ | ⟨i, _ | ⟨j, is⟩⟩
  · rfl
  · have hwritten : (Item.numbers [i]).written ++ rest = '[' :: (signed i ++ ']' :: rest) := by
      simp [Item.written]
    rw [hwritten]
    change (takeItems? (n + 1) _).map _ = _
    rw [Item.written, List.length_append, List.length_cons] at hn
    obtain ⟨n, rfl⟩ : ∃ m, n = m + 1 := ⟨n - 1, by omega⟩
    rw [takeItems?_last (h i List.mem_cons_self) (skipFiller?_signed i _)]
    rfl
  · have hwritten : (Item.numbers (i :: j :: is)).written
        = '[' :: '\n' :: itemLines (i :: j :: is) ++ [']'] := rfl
    have hlength := length_le_itemLines (i :: j :: is)
    rw [hwritten, List.length_append, List.length_cons, List.length_cons] at hn
    have htext : (Item.numbers (i :: j :: is)).written ++ rest
        = '[' :: '\n' :: (itemLines (i :: j :: is) ++ ']' :: rest) := by
      rw [hwritten]
      simp
    rw [htext]
    change (takeItems? (n + 1) _).map _ = _
    rw [takeItems?_itemLines h (by omega)]
    rfl

/-- A quoted text starts with a quote. -/
theorem head_quoted (cs : List Char) :
    ∃ ds, quoted cs = '"' :: ds ∨ quoted cs = apostrophe :: ds := by
  unfold quoted
  split
  · exact ⟨_, Or.inl rfl⟩
  · exact ⟨_, Or.inr rfl⟩
  · exact ⟨_, Or.inl rfl⟩
  · exact ⟨_, Or.inr rfl⟩

theorem takeValue?_quoted (s : String) :
    takeValue? (n + 1) (quoted s.toList ++ '\n' :: rest) =
      some (.value (.text s), '\n' :: rest) := by
  have hquoted := takeQuoted?_quoted s.toList rest
  have hvalue (cs : List Char) (hcs : ∃ ds, cs = '"' :: ds ∨ cs = apostrophe :: ds) :
      takeValue? (n + 1) cs =
        (takeQuoted? cs).map fun p => (.value (.text (String.ofList p.1)), p.2) := by
    obtain ⟨ds, rfl | rfl⟩ := hcs <;> rfl
  rw [hvalue, hquoted, Option.map_some, String.ofList_toList]
  obtain ⟨ds, hds | hds⟩ := head_quoted s.toList
  · exact ⟨ds ++ '\n' :: rest, Or.inl (by rw [hds]; rfl)⟩
  · exact ⟨ds ++ '\n' :: rest, Or.inr (by rw [hds]; rfl)⟩

/-- **A value is read back** up to the end of its line. -/
theorem takeValue?_written {item : Item} (h : item.Fits) (hn : item.written.length < n) :
    takeValue? (n + 1) (item.written ++ '\n' :: rest) =
      some (.value item.toData, '\n' :: rest) := by
  cases item with
  | number i => exact takeValue?_signed h ⟨'\n', rest, rfl, Or.inl rfl⟩
  | text s => exact takeValue?_quoted s
  | numbers is => exact takeValue?_numbers h hn

/-- A value does not start with a blank. -/
theorem skipBlanks_written (item : Item) (cs : List Char) :
    skipBlanks (item.written ++ cs) = item.written ++ cs := by
  have hhead : ∃ c ds, item.written = c :: ds ∧ c ≠ ' ' ∧ c ≠ '\t' := by
    cases item with
    | number i =>
      obtain ⟨c, ds, hcons, hhead⟩ := head_signed i
      exact ⟨c, ds, hcons, ne_of_head hhead rfl (by decide), ne_of_head hhead rfl (by decide)⟩
    | text s =>
      obtain ⟨ds, hds | hds⟩ := head_quoted s.toList
      · exact ⟨'"', ds, hds, by decide, by decide⟩
      · exact ⟨apostrophe, ds, hds, by decide, by decide⟩
    | numbers is =>
      rcases is with _ | ⟨i, _ | ⟨j, is⟩⟩
      · exact ⟨'[', _, rfl, by decide, by decide⟩
      · exact ⟨'[', _, rfl, by decide, by decide⟩
      · exact ⟨'[', _, rfl, by decide, by decide⟩
  obtain ⟨c, ds, hcons, hspace, htab⟩ := hhead
  rw [hcons, List.cons_append]
  exact List.dropWhile_cons_of_neg (by simp [hspace, htab])

/-! ## 3. Lines -/

/-- A key that needs no quotes. -/
def IsBare (key : String) : Prop := key.toList ≠ [] ∧ ∀ c ∈ key.toList, isKeyChar c = true

instance (key : String) : Decidable (IsBare key) :=
  decidable_of_iff (key.toList ≠ [] ∧ key.toList.all isKeyChar = true)
    (and_congr Iff.rfl List.all_eq_true)

/-- What stands at the start of a line with a bare key. -/
theorem isKeyChar_ne {c : Char} (h : isKeyChar c = true) :
    c ≠ '\n' ∧ c ≠ '\r' ∧ c ≠ ' ' ∧ c ≠ '\t' ∧ c ≠ '#' ∧ c ≠ '[' ∧ c ≠ '\ufeff' := by
  refine ⟨?_, ?_, ?_, ?_, ?_, ?_, ?_⟩ <;> rintro rfl <;> cases h

/-- **A bare key is read** up to what is no part of it, if that is no dot. -/
theorem takeKey?_append {key : String} (h : IsBare key) {c : Char} (hc : isKeyChar c = false)
    (hdot : ∀ ds, skipBlanks (c :: rest) ≠ '.' :: ds) :
    takeKey? (key.toList ++ c :: rest) = some (⟨[], key⟩, skipBlanks (c :: rest)) := by
  obtain ⟨d, ds, hcons⟩ := List.exists_cons_of_ne_nil h.1
  have hd := isKeyChar_ne (h.2 d (hcons ▸ List.mem_cons_self))
  have hskip : skipBlanks (key.toList ++ c :: rest) = key.toList ++ c :: rest := by
    rw [hcons, List.cons_append]
    exact List.dropWhile_cons_of_neg (by simp [hd.2.2.1, hd.2.2.2.1])
  have htake : (key.toList ++ c :: rest).takeWhile isKeyChar = key.toList := by
    rw [List.takeWhile_append_of_pos h.2, List.takeWhile_cons_of_neg (by simp [hc]),
      List.append_nil]
  have hdrop : (key.toList ++ c :: rest).dropWhile isKeyChar = c :: rest := by
    rw [List.dropWhile_append_of_pos h.2, List.dropWhile_cons_of_neg (by simp [hc])]
  have hsimple : takeSimpleKey? (key.toList ++ c :: rest) = some (key, c :: rest) := by
    unfold takeSimpleKey?
    rw [htake, hdrop]
    split
    · exact absurd ‹_› h.1
    · rw [String.ofList_toList]
  have hkeys (n : Nat) : takeKeys? (n + 1) (key.toList ++ c :: rest)
      = some ([key], skipBlanks (c :: rest)) := by
    rw [takeKeys?, hskip, hsimple, Option.bind_eq_bind, Option.bind_some]
    dsimp only
    split
    · exact absurd ‹_› (hdot _)
    · rfl
  unfold takeKey?
  rw [hkeys]
  rfl

/-- A bare key opens no bracket. -/
theorem IsBare.append_ne {key : String} (h : IsBare key) (cs ds : List Char) :
    key.toList ++ cs ≠ '[' :: ds := by
  obtain ⟨d, es, hcons⟩ := List.exists_cons_of_ne_nil h.1
  have hd := isKeyChar_ne (h.2 d (hcons ▸ List.mem_cons_self))
  rw [hcons]
  intro heq
  exact hd.2.2.2.2.2.1 (List.cons.inj heq).1

/-- The line of a pair. -/
def pairLine (p : String × Item) : Line := .pair ⟨[], p.1⟩ (.value p.2.toData)

/-- A pair is read up to the end of its line. -/
theorem takeLine?_pair {p : String × Item} (hkey : IsBare p.1) (hitem : p.2.Fits) :
    takeLine? (p.1.toList ++ ' ' :: '=' :: ' ' :: (p.2.written ++ '\n' :: rest)) =
      some (pairLine p, '\n' :: rest) := by
  have hread : takeKey? (p.1.toList ++ ' ' :: '=' :: ' ' :: (p.2.written ++ '\n' :: rest))
      = some (⟨[], p.1⟩, '=' :: ' ' :: (p.2.written ++ '\n' :: rest)) :=
    takeKey?_append hkey rfl (by simp [skipBlanks])
  have hequals : takeChar? '=' ('=' :: ' ' :: (p.2.written ++ '\n' :: rest))
      = some (' ' :: (p.2.written ++ '\n' :: rest)) := rfl
  have hskip : skipBlanks (' ' :: (p.2.written ++ '\n' :: rest))
      = p.2.written ++ '\n' :: rest := skipBlanks_written p.2 ('\n' :: rest)
  have hlength : p.2.written.length < 2 * (p.2.written ++ '\n' :: rest).length + 1 := by
    rw [List.length_append]
    omega
  rw [takeLine?.eq_def]
  split
  · exact absurd ‹_› (hkey.append_ne _ _)
  · exact absurd ‹_› (hkey.append_ne _ _)
  · rw [hread, Option.bind_eq_bind, Option.bind_some]
    dsimp only
    rw [hequals, Option.bind_eq_bind, Option.bind_some, hskip, takeValue?_written hitem hlength]
    rfl

/-- So is a header. -/
theorem takeLine?_header {name : String} (h : IsBare name) :
    takeLine? ('[' :: (name.toList ++ ']' :: rest)) = some (.header ⟨[], name⟩, rest) := by
  have hread : takeKey? (name.toList ++ ']' :: rest) = some (⟨[], name⟩, ']' :: rest) :=
    takeKey?_append h rfl (by simp [skipBlanks])
  rw [takeLine?.eq_def]
  split
  · rename_i heq
    exact absurd (List.cons.inj heq).2 (h.append_ne _ _)
  · rename_i heq
    obtain ⟨-, rfl⟩ := List.cons.inj heq
    rw [hread]
    rfl
  · rename_i hnot
    exact absurd rfl (hnot _)

theorem takeLines?_newline (n : Nat) (cs : List Char) :
    takeLines? n ('\n' :: cs) = takeLines? n cs := by
  cases n <;> rfl

/-- A line that ends is followed by others. -/
theorem takeLines?_of_line {line : Line} {cs : List Char}
    (hskip : skipFiller? false cs = some cs) (hne : cs ≠ [])
    (hline : takeLine? cs = some (line, '\n' :: rest)) :
    takeLines? (n + 1) cs = (takeLines? n rest).map (line :: ·) := by
  rw [takeLines?, hskip, Option.bind_eq_bind, Option.bind_some]
  split
  · exact absurd rfl hne
  · have hends : endsLine ('\n' :: rest) = true := rfl
    rw [hline, Option.bind_eq_bind, Option.bind_some]
    dsimp only
    rw [hends, if_pos rfl, takeLines?_newline]
    cases takeLines? n rest <;> rfl

/-! ## 4. Texts of many lines -/

/-- A text that is read as lines, whatever comes after it. -/
structure Reads (cs : List Char) (lines : List Line) : Prop where
  /-- The text is long enough to bound the number of its lines. -/
  length_le : lines.length ≤ cs.length
  takeLines?_append : ∀ n rest,
    takeLines? (lines.length + n) (cs ++ rest) = (takeLines? n rest).map (lines ++ ·)

namespace Reads

variable {cs ds : List Char} {ks ls : List Line}

theorem nil : Reads [] [] := by
  refine ⟨Nat.le_refl _, fun n rest => ?_⟩
  rw [List.length_nil, Nat.zero_add, List.nil_append]
  cases takeLines? n rest <;> rfl

theorem append (hc : Reads cs ks) (hd : Reads ds ls) : Reads (cs ++ ds) (ks ++ ls) := by
  refine ⟨?_, fun n rest => ?_⟩
  · rw [List.length_append, List.length_append]
    exact Nat.add_le_add hc.length_le hd.length_le
  · rw [List.length_append, Nat.add_assoc, List.append_assoc, hc.takeLines?_append,
      hd.takeLines?_append]
    cases takeLines? n rest <;> simp

theorem flatMap {α : Type} {f : α → List Char} {g : α → List Line} {as : List α}
    (h : ∀ a ∈ as, Reads (f a) (g a)) : Reads (as.flatMap f) (as.flatMap g) := by
  induction as with
  | nil => exact nil
  | cons a as ih =>
    rw [List.flatMap_cons, List.flatMap_cons]
    exact (h a List.mem_cons_self).append (ih fun b hb => h b (List.mem_cons_of_mem _ hb))

end Reads

/-- A pair that can be written down. -/
def Writable (p : String × Item) : Prop := IsBare p.1 ∧ p.2.Fits

theorem reads_pair {p : String × Item} (h : Writable p) :
    Reads (p.1.toList ++ [' ', '=', ' '] ++ p.2.written ++ ['\n']) [pairLine p] := by
  refine ⟨?_, fun n rest => ?_⟩
  · rw [List.length_append]
    exact Nat.le_add_left _ _
  have htext : p.1.toList ++ [' ', '=', ' '] ++ p.2.written ++ ['\n'] ++ rest
      = p.1.toList ++ ' ' :: '=' :: ' ' :: (p.2.written ++ '\n' :: rest) := by simp
  have hlength : [pairLine p].length + n = n + 1 := Nat.add_comm 1 n
  obtain ⟨c, cs, hcons⟩ := List.exists_cons_of_ne_nil h.1.1
  have hc := isKeyChar_ne (h.1.2 c (hcons ▸ List.mem_cons_self))
  have hskip (ds : List Char) : skipFiller? false (p.1.toList ++ ds) = some (p.1.toList ++ ds) := by
    rw [hcons]
    refine skipFiller?_cons _ hc.1 hc.2.1 ?_ hc.2.2.2.2.1
    rintro (hspace | htab)
    · exact hc.2.2.1 hspace
    · exact hc.2.2.2.1 htab
  rw [htext, hlength]
  exact takeLines?_of_line (hskip _) (by simp [hcons]) (takeLine?_pair h.1 h.2)

/-- Pairs are read line by line. -/
theorem reads_pairLines {pairs : Pairs} (h : ∀ p ∈ pairs, Writable p) :
    Reads (pairLines pairs) (pairs.map pairLine) := by
  rw [List.map_eq_flatMap]
  exact Reads.flatMap fun p hp => reads_pair (h p hp)

/-- The empty line before a header is passed over. -/
theorem reads_header {name : String} (h : IsBare name) :
    Reads (['\n', '['] ++ name.toList ++ [']', '\n']) [.header ⟨[], name⟩] := by
  refine ⟨?_, fun n rest => ?_⟩
  · rw [List.length_append]
    exact Nat.le_add_left_of_le (Nat.le_succ 1)
  have htext : ['\n', '['] ++ name.toList ++ [']', '\n'] ++ rest
      = '\n' :: '[' :: (name.toList ++ ']' :: '\n' :: rest) := by simp
  have hlength : [Line.header ⟨[], name⟩].length + n = n + 1 := Nat.add_comm 1 n
  have hskip : skipFiller? false ('[' :: (name.toList ++ ']' :: '\n' :: rest))
      = some ('[' :: (name.toList ++ ']' :: '\n' :: rest)) :=
    skipFiller?_cons _ (by decide) (by decide) (by decide) (by decide)
  rw [htext, hlength, takeLines?_newline]
  exact takeLines?_of_line hskip (List.cons_ne_nil _ _) (takeLine?_header h)

/-- The lines of a table. -/
def tableLines (table : String × Pairs) : List Line :=
  .header ⟨[], table.1⟩ :: table.2.map pairLine

/-- A document that can be written down. -/
structure Document.WellFormed (d : Document) : Prop where
  top : ∀ p ∈ d.top, Writable p
  tables : ∀ t ∈ d.tables, IsBare t.1 ∧ (∀ p ∈ t.2, Writable p) ∧ (t.2.map Prod.fst).Nodup
  nodup : (d.top.map Prod.fst ++ d.tables.map Prod.fst).Nodup

/-- **A document is read line by line.** -/
theorem reads_text {d : Document} (h : d.WellFormed) :
    Reads d.text (d.top.map pairLine ++ d.tables.flatMap tableLines) := by
  refine (reads_pairLines h.top).append (Reads.flatMap fun t ht => ?_)
  obtain ⟨hname, hpairs, -⟩ := h.tables t ht
  exact (reads_header hname).append (reads_pairLines hpairs)

/-! ## 5. Tables -/

variable {key : String} {node : Node} {entries : Entries}

/-- A key that is new. -/
theorem lookup_eq_none (h : key ∉ entries.map Prod.fst) : entries.lookup key = none := by
  rw [List.lookup_eq_none_iff]
  intro p hp
  rw [bne_iff_ne]
  rintro rfl
  exact h (List.mem_map_of_mem hp)

/-- An entry with a new key goes to the end. -/
theorem Entries.put_of_notMem (h : key ∉ entries.map Prod.fst) :
    entries.put key node = entries ++ [(key, node)] := by
  induction entries with
  | nil => rfl
  | cons e entries ih =>
    rw [List.map_cons, List.mem_cons, not_or] at h
    rw [Entries.put.eq_def]
    dsimp only
    rw [if_neg (Ne.symm h.1), ih h.2, List.cons_append]

theorem addPair_of_notMem (h : key ∉ entries.map Prod.fst) :
    addPair ⟨[], key⟩ node .header entries = some (entries ++ [(key, node)]) := by
  have hnone : (entries.lookup key).isNone = true := by rw [lookup_eq_none h]; rfl
  simp [addPair, within, hnone, Entries.put_of_notMem h]

/-- The entries that pairs make. -/
def pairEntries (pairs : Pairs) : Entries := pairs.map fun p => (p.1, .value p.2.toData)

theorem keys_pairEntries (pairs : Pairs) :
    (pairEntries pairs).map Prod.fst = pairs.map Prod.fst := by
  rw [pairEntries, List.map_map]
  rfl

/-- Pairs with new keys fill the table under their header. -/
theorem foldlM_pairLines {pairs : Pairs} {d : Draft}
    (h : (d.filling.map Prod.fst ++ pairs.map Prod.fst).Nodup) :
    (pairs.map pairLine).foldlM Draft.add? d =
      some { d with filling := d.filling ++ pairEntries pairs } := by
  induction pairs generalizing d with
  | nil => rw [pairEntries, List.map_nil, List.map_nil, List.append_nil]; rfl
  | cons p pairs ih =>
    have hnew : p.1 ∉ d.filling.map Prod.fst := by
      rw [List.map_cons] at h
      exact fun hmem => (List.nodup_append.mp h).2.2 _ hmem _ List.mem_cons_self rfl
    have hadd : d.add? (pairLine p) =
        some { d with filling := d.filling ++ [(p.1, .value p.2.toData)] } := by
      rw [pairLine, Draft.add?, addPair_of_notMem hnew, Option.map_some]
    rw [List.map_cons, List.foldlM_cons, hadd, Option.bind_eq_bind, Option.bind_some, ih]
    · rw [List.append_assoc]
      rfl
    · rw [List.map_append, List.append_assoc]
      exact h

/-- The entries that tables make. -/
def tableEntries (tables : List (String × Pairs)) : Entries :=
  tables.map fun t => (t.1, .table .header (pairEntries t.2))

/-- **Tables with new names go to the end of the document.** -/
theorem foldlM_tables {tables : List (String × Pairs)} {d : Draft} {placed : Entries}
    (hd : d.close? = some placed)
    (htables : ∀ t ∈ tables, (t.2.map Prod.fst).Nodup)
    (hnames : (placed.map Prod.fst ++ tables.map Prod.fst).Nodup) :
    ((tables.flatMap tableLines).foldlM Draft.add? d).bind Draft.close? =
      some (placed ++ tableEntries tables) := by
  induction tables generalizing d placed with
  | nil =>
    rw [tableEntries, List.map_nil, List.append_nil]
    exact hd
  | cons t tables ih =>
    have hnew : t.1 ∉ placed.map Prod.fst := by
      rw [List.map_cons] at hnames
      exact fun hmem => (List.nodup_append.mp hnames).2.2 _ hmem _ List.mem_cons_self rfl
    have hopen : openTable? ⟨[], t.1⟩ placed = some [] := by
      have hnode : nodeAt? ([] ++ [t.1]) placed = none := lookup_eq_none hnew
      rw [openTable?, hnode]
    have hheader : d.add? (.header ⟨[], t.1⟩) = some ⟨placed, .table ⟨[], t.1⟩, []⟩ := by
      rw [Draft.add?, hd, Option.bind_eq_bind, Option.bind_some, hopen]
      rfl
    have hpairs := foldlM_pairLines (d := ⟨placed, .table ⟨[], t.1⟩, []⟩)
      (htables t List.mem_cons_self)
    have hclose : Draft.close? ⟨placed, .table ⟨[], t.1⟩, [] ++ pairEntries t.2⟩ =
        some (placed ++ [(t.1, .table .header (pairEntries t.2))]) := by
      rw [← Entries.put_of_notMem hnew]
      rfl
    rw [List.flatMap_cons, List.foldlM_append, tableLines, List.foldlM_cons, hheader]
    change ((((t.2.map pairLine).foldlM Draft.add? _).bind _).bind _) = _
    rw [hpairs, Option.bind_some, ih hclose fun u hu => htables u (List.mem_cons_of_mem _ hu)]
    · rw [List.append_assoc]
      rfl
    · rw [List.map_append, List.append_assoc]
      exact hnames

/-! ## 6. Documents -/

theorem entriesData_append (as bs : Entries) :
    entriesData (as ++ bs) = entriesData as ++ entriesData bs := by
  induction as with
  | nil => rfl
  | cons a as ih =>
    change (a.1, a.2.toData) :: entriesData (as ++ bs) = _
    rw [ih]
    rfl

theorem entriesData_pairEntries (pairs : Pairs) :
    entriesData (pairEntries pairs) = pairsData pairs := by
  induction pairs with
  | nil => rfl
  | cons p pairs ih =>
    change (p.1, p.2.toData) :: entriesData (pairEntries pairs) = _
    rw [ih]
    rfl

theorem entriesData_tableEntries (tables : List (String × Pairs)) :
    entriesData (tableEntries tables) = tables.map fun t => (t.1, .record (pairsData t.2)) := by
  induction tables with
  | nil => rfl
  | cons t tables ih =>
    change (t.1, Data.record (entriesData (pairEntries t.2))) :: entriesData (tableEntries tables)
      = _
    rw [entriesData_pairEntries, ih]
    rfl

/-- A document starts with a key or with an empty line. -/
theorem head_text_ne {d : Document} (h : d.WellFormed) : d.text.head? ≠ some '\ufeff' := by
  intro hhead
  unfold Document.text at hhead
  rcases hd : d.top with _ | ⟨p, pairs⟩
  · rw [hd] at hhead
    rcases ht : d.tables with _ | ⟨t, tables⟩
    · rw [ht] at hhead
      cases hhead
    · rw [ht, List.flatMap_cons] at hhead
      cases hhead
  · have hbare := (h.top p (hd ▸ List.mem_cons_self)).1
    obtain ⟨c, cs, hcons⟩ := List.exists_cons_of_ne_nil hbare.1
    have hc := isKeyChar_ne (hbare.2 c (hcons ▸ List.mem_cons_self))
    have htext (ds : List Char) : (pairLines (p :: pairs) ++ ds).head? = some c := by
      rw [pairLines, List.flatMap_cons]
      dsimp only
      rw [hcons]
      rfl
    rw [hd, htext] at hhead
    exact hc.2.2.2.2.2.2 (Option.some.inj hhead)

/-- **A document is read back** as the data that it stands for. -/
theorem read?_text {d : Document} (h : d.WellFormed) : read? d.text = some d.toData := by
  have hreads := reads_text h
  have hlines : takeLines? (d.text.length + 1) d.text =
      some (d.top.map pairLine ++ d.tables.flatMap tableLines) := by
    obtain ⟨m, hm⟩ := Nat.exists_eq_add_of_le hreads.length_le
    have happend := hreads.takeLines?_append (m + 1) []
    rw [List.append_nil, ← Nat.add_assoc, ← hm] at happend
    rw [happend]
    change some (_ ++ []) = _
    rw [List.append_nil]
  have htop : (d.top.map pairLine).foldlM Draft.add? Draft.empty =
      some ⟨[], .top, pairEntries d.top⟩ :=
    foldlM_pairLines (d := Draft.empty) (List.nodup_append.mp h.nodup).1
  have hclose : Draft.close? ⟨[], .top, pairEntries d.top⟩ = some (pairEntries d.top) := rfl
  have hnames : ((pairEntries d.top).map Prod.fst ++ d.tables.map Prod.fst).Nodup := by
    rw [keys_pairEntries]
    exact h.nodup
  have htables := foldlM_tables hclose (fun t ht => (h.tables t ht).2.2) hnames
  unfold read?
  dsimp only
  rw [if_neg (head_text_ne h), hlines, Option.bind_eq_bind, Option.bind_some,
    List.foldlM_append, htop]
  change ((d.tables.flatMap tableLines).foldlM Draft.add? _).bind
    (fun draft => draft.close?.bind _) = _
  rw [← Option.bind_assoc, htables, Option.bind_some, entriesData_append,
    entriesData_pairEntries, entriesData_tableEntries]
  rfl

end IrrigationLog.Toml
