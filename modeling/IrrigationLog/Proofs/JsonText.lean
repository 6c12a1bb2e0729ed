/-
# Reading takes back the JSON text of data

The reader of JSON texts takes any text of the grammar, the writer makes one particular text.
What was written is read back as it was (`Json.read?_text`), for all data that can be told in
JSON at all: a value that no reader takes is written as `null` and not known again
(`Data.Plain` leaves it out).

* A **number** is read to its last digit, so what follows it must not go on with a number
  (`Stops`).
* A **text** is read unit by unit; every character is one unit, because characters are no
  surrogates (`takeUnits?_escaped`, `joinUnits?_map_toNat`).
* **Lists and records** are read with a bound on the depth that goes down with every value; two
  steps for each character are enough (`ReadBack`).
-/
import IrrigationLog.Data.Json

namespace IrrigationLog

/-- Data that is told in full by its text. -/
inductive Data.Plain : Data → Prop
  | null : Plain .null
  | bool (b : Bool) : Plain (.bool b)
  | int (i : Int) : Plain (.int i)
  | text (s : String) : Plain (.text s)
  | list {items : List Data} (h : ∀ d ∈ items, Plain d) : Plain (.list items)
  | record {fields : List (String × Data)} (h : ∀ f ∈ fields, Plain f.2) : Plain (.record fields)

theorem Data.Plain.map {α : Type} {put : α → Data} (h : ∀ a, (put a).Plain) (as : List α) :
    (Data.list (as.map put)).Plain := by
  refine .list fun d hd => ?_
  obtain ⟨a, -, rfl⟩ := List.mem_map.mp hd
  exact h a

theorem Data.Plain.ints (is : List Int) : (Data.ints is).Plain := .map .int is

namespace Json

open Text

/-! ## 1. Numbers -/

/-- A text that does not go on with a number. -/
def Stops (rest : List Char) : Prop :=
  ∀ c ∈ rest.head?, c.isDigit = false ∧ c ≠ '.' ∧ c ≠ 'e' ∧ c ≠ 'E'

theorem stops_nil : Stops [] := by
  intro c hc
  cases hc

theorem stops_comma (rest : List Char) : Stops (',' :: rest) := by
  intro c hc
  cases hc
  decide

theorem stops_bracket (rest : List Char) : Stops (']' :: rest) := by
  intro c hc
  cases hc
  decide

theorem stops_brace (rest : List Char) : Stops ('}' :: rest) := by
  intro c hc
  cases hc
  decide

variable {rest : List Char}

/-- Digits are taken up to where a number ends. -/
theorem takeRun?_digits {ds : List Char} (hne : ds ≠ []) (hds : ∀ c ∈ ds, c.isDigit = true)
    (hrest : Stops rest) : takeRun? (ds ++ rest) = some (ds, rest) := by
  have htake : rest.takeWhile Char.isDigit = [] := by
    cases rest with
    | nil => rfl
    | cons c cs => exact List.takeWhile_cons_of_neg (by simp [(hrest c rfl).1])
  have hdrop : rest.dropWhile Char.isDigit = rest := by
    cases rest with
    | nil => rfl
    | cons c cs => exact List.dropWhile_cons_of_neg (by simp [(hrest c rfl).1])
  unfold takeRun?
  rw [List.takeWhile_append_of_pos hds, htake, List.append_nil,
    List.dropWhile_append_of_pos hds, hdrop]
  cases ds with
  | nil => exact absurd rfl hne
  | cons d ds => rfl

theorem skipFraction?_of_stops (h : Stops rest) : skipFraction? rest = some rest := by
  unfold skipFraction?
  split
  · exact absurd rfl (h '.' rfl).2.1
  · rfl

theorem skipExponent?_of_stops (h : Stops rest) : skipExponent? rest = some rest := by
  unfold skipExponent?
  split
  · exact absurd rfl (h 'e' rfl).2.2.1
  · exact absurd rfl (h 'e' rfl).2.2.1
  · exact absurd rfl (h 'E' rfl).2.2.2
  · exact absurd rfl (h 'E' rfl).2.2.2
  · exact absurd rfl (h 'e' rfl).2.2.1
  · exact absurd rfl (h 'E' rfl).2.2.2
  · rfl

/-- Only zero is written with a zero in front. -/
theorem eq_zero_of_head_decimal {n : Nat} (h : (decimal n).head? = some '0') : n = 0 := by
  induction n using Nat.strongRecOn with
  | ind n ih =>
    by_cases hsmall : n < 10
    · have hdigits : ∀ k < 10, (decimal k).head? = some '0' → k = 0 := by decide
      exact hdigits n hsmall h
    · have hsplit : decimal n = decimal (n / 10) ++ [Nat.digitChar (n % 10)] :=
        Nat.toDigits_of_base_le (by omega) (by omega)
      obtain ⟨c, cs, hcons⟩ := List.exists_cons_of_ne_nil (decimal_ne_nil (n / 10))
      rw [hsplit, hcons] at h
      have := ih (n / 10) (by omega) (hcons ▸ h)
      omega

/-- A number is read back, with its sign. -/
theorem takeNumber?_decimal (negative : Bool) (n : Nat) (hn : negative = true → n ≠ 0)
    (hrest : Stops rest) :
    takeNumber? negative (decimal n ++ rest) =
      some (.int (if negative then -(n : Int) else n), rest) := by
  have hrun := takeRun?_digits (decimal_ne_nil n) (fun _ h => isDigit_of_mem_decimal h) hrest
  have hzero : ¬((decimal n).head? = some '0' ∧ decimal n ≠ ['0']) := by
    rintro ⟨hhead, hne⟩
    rw [eq_zero_of_head_decimal hhead] at hne
    exact hne rfl
  have hvalue : Nat.ofDigitChars 10 (decimal n) 0 = n := Nat.ofDigitChars_ten_toDigits
  unfold takeNumber?
  rw [hrun, Option.bind_eq_bind, Option.bind_some]
  dsimp only
  rw [if_neg hzero, skipFraction?_of_stops hrest, Option.bind_some,
    skipExponent?_of_stops hrest, Option.bind_eq_bind, Option.bind_some, hvalue]
  refine if_neg ?_
  rintro (hlength | ⟨hneg, hn0⟩)
  · exact hlength rfl
  · exact hn hneg hn0

/-! ## 2. Texts -/

theorem hexUnit?_control : ∀ n < 32,
    hexUnit? '0' '0' (hexDigit (n / 16)) (hexDigit (n % 16)) = some n := by
  decide

/-- A short escape is one unit. -/
theorem takeUnits?_short {e c : Char} (he : e ≠ 'u') (h : shortEscape? e = some c)
    (cs : List Char) :
    takeUnits? ('\\' :: e :: cs) =
      (takeUnits? cs).map fun (units, rest) => (c.toNat :: units, rest) := by
  rw [takeUnits?.eq_def]
  split
  · rename_i heq
    cases heq
  · rename_i heq
    cases heq
  · rename_i heq
    cases heq
    exact absurd rfl he
  · rename_i e' cs' _ heq
    cases heq
    rw [h]
    cases takeUnits? cs <;> rfl
  · rename_i heq
    cases heq
  · rename_i hshort _ heq
    cases heq
    exact (hshort e cs rfl rfl).elim

/-- So is a character that stands for itself. -/
theorem takeUnits?_self {c : Char} (hquote : c ≠ '"') (hback : c ≠ '\\')
    (hplain : ¬c.toNat < 32) (cs : List Char) :
    takeUnits? (c :: cs) =
      (takeUnits? cs).map fun (units, rest) => (c.toNat :: units, rest) := by
  rw [takeUnits?.eq_def]
  split
  · rename_i heq
    cases heq
  · rename_i heq
    cases heq
    exact absurd rfl hquote
  · rename_i heq
    cases heq
    exact absurd rfl hback
  · rename_i heq
    cases heq
    exact absurd rfl hback
  · rename_i heq
    cases heq
    exact absurd rfl hback
  · rename_i heq
    cases heq
    rw [if_neg hplain]
    cases takeUnits? cs <;> rfl

/-- **An escaped character is one unit.** -/
theorem takeUnits?_escaped_cons (c : Char) (cs : List Char) :
    takeUnits? (escaped c ++ cs) =
      (takeUnits? cs).map fun (units, rest) => (c.toNat :: units, rest) := by
  unfold escaped
  split
  · subst c
    exact takeUnits?_short (by decide) rfl cs
  split
  · subst c
    exact takeUnits?_short (by decide) rfl cs
  split
  · subst c
    exact takeUnits?_short (by decide) rfl cs
  split
  · subst c
    exact takeUnits?_short (by decide) rfl cs
  split
  · subst c
    exact takeUnits?_short (by decide) rfl cs
  split
  · subst c
    exact takeUnits?_short (by decide) rfl cs
  split
  · subst c
    exact takeUnits?_short (by decide) rfl cs
  split
  · rename_i hcontrol
    have hunit := hexUnit?_control c.toNat hcontrol
    simp only [List.cons_append, List.nil_append]
    rw [takeUnits?, hunit]
    cases takeUnits? cs <;> rfl
  · rename_i hquote hback _ _ _ _ _ hplain
    exact takeUnits?_self hquote hback hplain cs

/-- A quoted text is read up to its closing quote, a unit for each character. -/
theorem takeUnits?_escaped (cs rest : List Char) :
    takeUnits? (cs.flatMap escaped ++ '"' :: rest) = some (cs.map Char.toNat, rest) := by
  induction cs with
  | nil => rfl
  | cons c cs ih =>
    rw [List.flatMap_cons, List.append_assoc, takeUnits?_escaped_cons, ih]
    rfl

/-- No character is a surrogate. -/
theorem not_surrogate (c : Char) : ¬(0xd800 ≤ c.toNat ∧ c.toNat ≤ 0xdfff) := by
  have hvalid : c.val.toNat < 0xd800 ∨ 0xdfff < c.val.toNat ∧ c.val.toNat < 0x110000 := c.valid
  change ¬(0xd800 ≤ c.val.toNat ∧ c.val.toNat ≤ 0xdfff)
  omega

/-- The units of characters denote these characters. -/
theorem joinUnits?_map_toNat : ∀ cs : List Char, joinUnits? (cs.map Char.toNat) = some cs
  | [] => rfl
  | [c] => by
    rw [List.map_singleton, joinUnits?, if_neg (not_surrogate c), Char.ofNat_toNat]
  | c :: d :: cs => by
    have ih := joinUnits?_map_toNat (d :: cs)
    have hpair : ¬(0xd800 ≤ c.toNat ∧ c.toNat ≤ 0xdbff ∧ 0xdc00 ≤ d.toNat ∧ d.toNat ≤ 0xdfff) := by
      have := not_surrogate c
      omega
    rw [List.map_cons] at ih
    rw [List.map_cons, List.map_cons, joinUnits?, if_neg hpair, if_neg (not_surrogate c), ih,
      Option.map_some, Char.ofNat_toNat]

/-! ## 3. Single values -/

variable {n : Nat}

/-- What stands at the start of a value: no white space, and nothing that closes. -/
def Starts (cs : List Char) : Prop :=
  ∃ c ds, cs = c :: ds ∧ isSpace c = false ∧ c ≠ ']' ∧ c ≠ '}'

theorem Starts.append {cs : List Char} (h : Starts cs) (ds : List Char) : Starts (cs ++ ds) := by
  obtain ⟨c, cs, rfl, hc⟩ := h
  exact ⟨c, cs ++ ds, rfl, hc⟩

/-- No white space is passed over there. -/
theorem Starts.skipSpace_eq {cs : List Char} (h : Starts cs) : skipSpace cs = cs := by
  obtain ⟨c, cs, rfl, hspace, -⟩ := h
  exact List.dropWhile_cons_of_neg (by simp [hspace])

theorem starts_digit {c : Char} (h : c.isDigit = true) (cs : List Char) : Starts (c :: cs) := by
  refine ⟨c, cs, rfl, ?_, ?_, ?_⟩
  · cases hspace : isSpace c with
    | false => rfl
    | true =>
      simp only [isSpace, Bool.or_eq_true, beq_iff_eq] at hspace
      rcases hspace with ((rfl | rfl) | rfl) | rfl <;> exact absurd h (by decide)
  · rintro rfl
    exact absurd h (by decide)
  · rintro rfl
    exact absurd h (by decide)

theorem starts_decimal (n : Nat) : Starts (decimal n) := by
  obtain ⟨c, cs, hcons⟩ := List.exists_cons_of_ne_nil (decimal_ne_nil n)
  rw [hcons]
  exact starts_digit (head_decimal_isDigit hcons) cs

/-- So the text of every value starts. -/
theorem starts_text (d : Data) : Starts (text d) := by
  cases d with
  | int i =>
    cases i with
    | ofNat n => exact starts_decimal n
    | negSucc n => exact ⟨'-', _, rfl, by decide⟩
  | bool b => cases b <;> exact ⟨_, _, rfl, by decide⟩
  | null => exact ⟨_, _, rfl, by decide⟩
  | text s => exact ⟨_, _, rfl, by decide⟩
  | list items => exact ⟨_, _, rfl, by decide⟩
  | record fields => exact ⟨_, _, rfl, by decide⟩
  | other => exact ⟨_, _, rfl, by decide⟩

/-- A digit starts a number. -/
theorem takeValue?_digit {c : Char} (hc : c.isDigit = true) (cs : List Char) :
    takeValue? (n + 1) (c :: cs) = takeNumber? false (c :: cs) := by
  rw [takeValue?, (starts_digit hc cs).skipSpace_eq]
  split
  case h_8 => rfl
  all_goals
    rename_i heq
    cases heq
    exact absurd hc (by decide)

theorem takeValue?_signed (i : Int) (hrest : Stops rest) :
    takeValue? (n + 1) (signed i ++ rest) = some (.int i, rest) := by
  cases i with
  | ofNat m =>
    obtain ⟨c, cs, hcons⟩ := List.exists_cons_of_ne_nil (decimal_ne_nil m)
    have hnumber := takeNumber?_decimal false m nofun hrest
    have hsigned : signed (.ofNat m) = decimal m := rfl
    rw [hsigned]
    rw [hcons, List.cons_append] at hnumber ⊢
    rw [takeValue?_digit (head_decimal_isDigit hcons), hnumber]
    rfl
  | negSucc m =>
    have hnumber := takeNumber?_decimal true (m + 1) (by omega) hrest
    have hvalue : -((m + 1 : Nat) : Int) = .negSucc m := rfl
    change takeNumber? true (decimal (m + 1) ++ rest) = _
    rw [hnumber, if_pos rfl, hvalue]

theorem takeValue?_quoted (s : String) (rest : List Char) :
    takeValue? (n + 1) (quoted s.toList ++ rest) = some (.text s, rest) := by
  have hunits := takeUnits?_escaped s.toList rest
  have hquoted : quoted s.toList ++ rest
      = '"' :: (s.toList.flatMap escaped ++ '"' :: rest) := by
    simp [quoted]
  rw [hquoted]
  change (takeUnits? _).map _ = _
  rw [hunits, Option.map_some]
  dsimp only
  rw [joinUnits?_map_toNat, Option.map_some, Option.getD_some, String.ofList_toList]

/-! ## 4. Lists and records -/

theorem itemsText_cons_cons (d e : Data) (es : List Data) :
    itemsText (d :: e :: es) = text d ++ ',' :: itemsText (e :: es) := by
  rw [itemsText]
  exact nofun

theorem fieldsText_cons_cons (name : String) (d : Data) (f : String × Data)
    (fs : List (String × Data)) :
    fieldsText ((name, d) :: f :: fs) =
      quoted name.toList ++ ':' :: (text d ++ ',' :: fieldsText (f :: fs)) := by
  rw [fieldsText]
  exact nofun

/-- A value is read back wherever its text stands, if the depth is enough for its length. -/
def ReadBack (d : Data) : Prop :=
  ∀ (n : Nat) (rest : List Char), 2 * (text d).length ≤ n + 1 → Stops rest →
    takeValue? n (text d ++ rest) = some (d, rest)

theorem length_text_pos (d : Data) : 0 < (text d).length := by
  obtain ⟨c, cs, hcons, -⟩ := starts_text d
  rw [hcons]
  exact Nat.zero_lt_succ _

/-- Items are read back up to the bracket. -/
theorem takeItems?_itemsText {d : Data} {ds : List Data} (h : ∀ e ∈ d :: ds, ReadBack e)
    (hn : 2 * (itemsText (d :: ds)).length ≤ n) :
    takeItems? n (itemsText (d :: ds) ++ ']' :: rest) = some (d :: ds, rest) := by
  induction ds generalizing d n with
  | nil =>
    have hpos := length_text_pos d
    rw [itemsText] at hn ⊢
    obtain ⟨n, rfl⟩ : ∃ m, n = m + 1 := ⟨n - 1, by omega⟩
    have hd := h d List.mem_cons_self n (']' :: rest) (by omega) (stops_bracket rest)
    rw [takeItems?, hd]
    rfl
  | cons e es ih =>
    rw [itemsText_cons_cons, List.length_append, List.length_cons] at hn
    obtain ⟨n, rfl⟩ : ∃ m, n = m + 1 := ⟨n - 1, by omega⟩
    have hd := h d List.mem_cons_self n (',' :: (itemsText (e :: es) ++ ']' :: rest)) (by omega)
      (stops_comma _)
    have hes := @ih n e (fun x hx => h x (List.mem_cons_of_mem _ hx)) (by omega)
    rw [itemsText_cons_cons, List.append_assoc, List.cons_append, takeItems?, hd]
    change (takeItems? n (itemsText (e :: es) ++ ']' :: rest)).bind _ = _
    rw [hes]
    rfl

/-- A field ends the record or is followed by others. -/
theorem takeFields?_quoted (name : String) (d : Data) (cs rest : List Char) :
    (takeValue? n cs = some (d, '}' :: rest) →
      takeFields? (n + 1) (quoted name.toList ++ ':' :: cs) = some (some [(name, d)], rest)) ∧
    ∀ ds fields, takeValue? n cs = some (d, ',' :: ds) →
      takeFields? n ds = some (some fields, rest) →
      takeFields? (n + 1) (quoted name.toList ++ ':' :: cs) =
        some (some ((name, d) :: fields), rest) := by
  have hunits := takeUnits?_escaped name.toList (':' :: cs)
  have hquoted : quoted name.toList ++ ':' :: cs
      = '"' :: (name.toList.flatMap escaped ++ '"' :: ':' :: cs) := by
    simp [quoted]
  have hfield : (joinUnits? (name.toList.map Char.toNat)).map
      (fun name => (String.ofList name, d)) = some (name, d) := by
    rw [joinUnits?_map_toNat, Option.map_some, String.ofList_toList]
  rw [hquoted, takeFields?]
  refine ⟨fun hvalue => ?_, fun ds fields hvalue hfields => ?_⟩
  · change (takeUnits? _).bind _ = _
    rw [hunits, Option.bind_some]
    change (takeValue? n cs).bind _ = _
    rw [hvalue, Option.bind_some]
    dsimp only
    rw [hfield]
    rfl
  · change (takeUnits? _).bind _ = _
    rw [hunits, Option.bind_some]
    change (takeValue? n cs).bind _ = _
    rw [hvalue, Option.bind_some]
    dsimp only
    rw [hfield]
    change (takeFields? n ds).bind _ = _
    rw [hfields]
    rfl

/-- Fields are read back up to the brace. -/
theorem takeFields?_fieldsText {f : String × Data} {fs : List (String × Data)}
    (h : ∀ g ∈ f :: fs, ReadBack g.2) (hn : 2 * (fieldsText (f :: fs)).length ≤ n) :
    takeFields? n (fieldsText (f :: fs) ++ '}' :: rest) = some (some (f :: fs), rest) := by
  induction fs generalizing f n with
  | nil =>
    obtain ⟨name, d⟩ := f
    have hpos := length_text_pos d
    rw [fieldsText, List.length_append, List.length_cons] at hn
    obtain ⟨n, rfl⟩ : ∃ m, n = m + 1 := ⟨n - 1, by omega⟩
    have hd := h (name, d) List.mem_cons_self n ('}' :: rest) (by dsimp only; omega)
      (stops_brace rest)
    rw [fieldsText, List.append_assoc, List.cons_append]
    exact (takeFields?_quoted name d _ rest).1 hd
  | cons g gs ih =>
    obtain ⟨name, d⟩ := f
    rw [fieldsText_cons_cons, List.length_append, List.length_cons, List.length_append,
      List.length_cons] at hn
    obtain ⟨n, rfl⟩ : ∃ m, n = m + 1 := ⟨n - 1, by omega⟩
    have hd := h (name, d) List.mem_cons_self n (',' :: (fieldsText (g :: gs) ++ '}' :: rest))
      (by dsimp only; omega) (stops_comma _)
    have hgs := @ih n g (fun x hx => h x (List.mem_cons_of_mem _ hx)) (by omega)
    rw [fieldsText_cons_cons, List.append_assoc, List.cons_append, List.append_assoc,
      List.cons_append]
    exact (takeFields?_quoted name d _ rest).2 _ _ hd hgs

/-- The items of a list start like its first one. -/
theorem starts_itemsText (d : Data) (ds : List Data) : Starts (itemsText (d :: ds)) := by
  cases ds with
  | nil =>
    rw [itemsText]
    exact starts_text d
  | cons e es =>
    rw [itemsText_cons_cons]
    exact (starts_text d).append _

theorem starts_fieldsText (f : String × Data) (fs : List (String × Data)) :
    Starts (fieldsText (f :: fs)) := by
  have hquoted (name : String) : Starts (quoted name.toList) := ⟨'"', _, rfl, by decide⟩
  cases fs with
  | nil =>
    rw [fieldsText]
    exact (hquoted f.1).append _
  | cons g gs =>
    rw [fieldsText_cons_cons]
    exact (hquoted f.1).append _

/-- What starts with a value is no empty list. -/
theorem takeValue?_bracket {cs : List Char} (h : Starts cs) :
    takeValue? (n + 1) ('[' :: cs) =
      (takeItems? n cs).map fun (items, rest) => (.list items, rest) := by
  obtain ⟨c, ds, rfl, hspace, hclose, hbrace⟩ := h
  have hopen : skipSpace ('[' :: c :: ds) = '[' :: c :: ds := rfl
  have hskip : skipSpace (c :: ds) = c :: ds :=
    Starts.skipSpace_eq ⟨c, ds, rfl, hspace, hclose, hbrace⟩
  simp only [takeValue?, hopen, hskip]
  split
  · rename_i heq
    cases heq
    exact absurd rfl hclose
  · rfl

theorem takeValue?_brace {cs : List Char} (h : Starts cs) :
    takeValue? (n + 1) ('\x7b' :: cs) =
      (takeFields? n cs).map fun (fields, rest) =>
        ((fields.map Data.record).getD .other, rest) := by
  obtain ⟨c, ds, rfl, hspace, hbracket, hclose⟩ := h
  have hopen : skipSpace ('\x7b' :: c :: ds) = '\x7b' :: c :: ds := rfl
  have hskip : skipSpace (c :: ds) = c :: ds :=
    Starts.skipSpace_eq ⟨c, ds, rfl, hspace, hbracket, hclose⟩
  simp only [takeValue?, hopen, hskip]
  split
  · rename_i heq
    cases heq
    exact absurd rfl hclose
  · rfl

/-! ## 5. All data -/

/-- A value has a text, so that at least one step is left for it. -/
theorem readBack_of_succ {d : Data}
    (h : ∀ n rest, 2 * (text d).length ≤ n + 2 → Stops rest →
      takeValue? (n + 1) (text d ++ rest) = some (d, rest)) : ReadBack d := by
  intro n rest hn hrest
  have hpos := length_text_pos d
  obtain ⟨n, rfl⟩ : ∃ m, n = m + 1 := ⟨n - 1, by omega⟩
  exact h n rest hn hrest

/-- **Every value is read back** wherever its text stands. -/
theorem readBack_of_plain {d : Data} (h : d.Plain) : ReadBack d := by
  induction h with
  | null => exact readBack_of_succ fun n rest _ _ => rfl
  | bool b => cases b <;> exact readBack_of_succ fun n rest _ _ => rfl
  | int i =>
    refine readBack_of_succ fun n rest _ hrest => ?_
    rw [text]
    exact takeValue?_signed i hrest
  | text s =>
    refine readBack_of_succ fun n rest _ _ => ?_
    rw [text]
    exact takeValue?_quoted s rest
  | @list items _ ih =>
    refine readBack_of_succ fun n rest hn _ => ?_
    rw [text] at hn ⊢
    cases items with
    | nil => rfl
    | cons d ds =>
      have hstarts := (starts_itemsText d ds).append (']' :: rest)
      rw [List.cons_append, List.length_cons, List.length_append] at hn
      rw [List.cons_append, List.cons_append, List.append_assoc, List.singleton_append,
        takeValue?_bracket hstarts, takeItems?_itemsText ih (by simp at hn; omega)]
      rfl
  | @record fields _ ih =>
    refine readBack_of_succ fun n rest hn _ => ?_
    rw [text] at hn ⊢
    cases fields with
    | nil => rfl
    | cons f fs =>
      have hstarts := (starts_fieldsText f fs).append ('}' :: rest)
      rw [List.cons_append, List.length_cons, List.length_append] at hn
      rw [List.cons_append, List.cons_append, List.append_assoc, List.singleton_append,
        takeValue?_brace hstarts, takeFields?_fieldsText ih (by simp at hn; omega)]
      rfl

/-- **What was written is read back.** -/
theorem read?_text {d : Data} (h : d.Plain) : read? (text d) = some d := by
  have hread := readBack_of_plain h (2 * (text d).length + 2) [] (by omega) stops_nil
  rw [List.append_nil] at hread
  unfold read?
  rw [hread]
  rfl

end Json

end IrrigationLog
