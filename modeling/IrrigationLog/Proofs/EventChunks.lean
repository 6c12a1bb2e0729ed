/-
# Chunks are greedy, and as few as can be

A text is cut into chunks from its front, each as long as the limits permit.  This module says
what that makes of any text under any limits.

* **Nothing is lost.**  The chunks are the text, cut between characters only, and none is empty
  or longer than the chunk size (`EventLimits.CutsInto`).  The chunk size is never below the four
  bytes of the longest character, so there is always one that fits (`length_encode_fit_le`).
* **No chunk stops early.**  Another character would not have fitted (`lt_length_encode_fit`).
* **Cutting them off comes to an end.**  One may as well look at the bytes from behind, and step
  back from where a chunk would be full to where a character begins: that cuts off what fits
  (`cut?_encode`), and so the same chunks, until nothing is left (`cuts_chunksOf`).
* **No other way of cutting needs fewer pieces.**  Whatever pieces a text is cut into, the first
  chunk reaches at least as far as the first piece (`fit_longest`), so what is left of the text
  is the end of what the other pieces make up.  The comparison is therefore with the pieces of a
  longer text, and goes on by induction on them (`length_chunksOf_le_of_suffix`).

Sizes are in bytes and the pieces of the comparison are lists of bytes, so that a cut within a
character is ruled out by a condition and not by the type.
-/
import Mathlib.Data.List.Chain
import IrrigationLog.Proofs.EventStream
import IrrigationLog.Text.Utf8

namespace IrrigationLog

/-! ## 1. Bytes -/

namespace Utf8

theorem length_encode_cons (c : Char) (cs : List Char) :
    (encode (c :: cs)).length = c.utf8Size + (encode cs).length := by
  simp [encode]

/-- Texts with the same bytes are the same. -/
theorem encode_injective {cs ds : List Char} (h : encode cs = encode ds) : cs = ds := by
  have hread := decode?_encode cs
  rw [h, decode?_encode] at hread
  exact (Option.some.inj hread).symm

theorem isEmpty_encode (cs : List Char) : (encode cs).isEmpty = cs.isEmpty := by
  cases cs with
  | nil => rfl
  | cons c cs =>
    rw [List.isEmpty_cons, ← Bool.not_eq_true, List.isEmpty_iff_length_eq_zero,
      length_encode_cons]
    have hc := c.utf8Size_pos
    omega

theorem encode_flatten (css : List (List Char)) :
    encode css.flatten = (css.map encode).flatten := by
  induction css with
  | nil => rfl
  | cons cs css ih => rw [List.flatten_cons, encode_append, ih, List.map_cons, List.flatten_cons]

end Utf8

namespace EventLimits

/-- Pieces of bytes make up a text, are cut between characters only, and none is longer than a
size. -/
structure CutsInto (size : Nat) (text : List Char) (pieces : List (List UInt8)) : Prop where
  whole : pieces.flatten = Utf8.encode text
  between : ∀ p ∈ pieces, ∃ cs, Utf8.decode? p = some cs
  short : ∀ p ∈ pieces, p.length ≤ size

/-- Pieces that are cut between characters are the bytes of texts. -/
theorem exists_texts {pieces : List (List UInt8)}
    (h : ∀ p ∈ pieces, ∃ cs, Utf8.decode? p = some cs) :
    ∃ texts : List (List Char), pieces = texts.map Utf8.encode := by
  induction pieces with
  | nil => exact ⟨[], rfl⟩
  | cons p ps ih =>
    obtain ⟨cs, hcs⟩ := h p List.mem_cons_self
    obtain ⟨texts, htexts⟩ := ih fun q hq => h q (List.mem_cons_of_mem _ hq)
    exact ⟨cs :: texts, by rw [List.map_cons, ← htexts, ← Utf8.eq_encode_of_decode? hcs]⟩

/-! ## 2. What fits -/

/-- What fits is no longer than the size. -/
theorem length_encode_fit_le (size : Nat) (cs : List Char) :
    (Utf8.encode (fit size cs).1).length ≤ size := by
  induction cs generalizing size with
  | nil => simp [fit]
  | cons c cs ih =>
    rw [fit]
    split
    · have hrest := ih (size - c.utf8Size)
      rw [Utf8.length_encode_cons]
      omega
    · simp

/-- **What does not fit** is longer, by its first character. -/
theorem lt_length_encode_fit (size : Nat) (cs : List Char) {next : Char} {rest : List Char}
    (h : (fit size cs).2 = next :: rest) :
    size < (Utf8.encode (fit size cs).1).length + next.utf8Size := by
  induction cs generalizing size with
  | nil => cases h
  | cons c cs ih =>
    rw [fit] at h ⊢
    split at h
    next hle =>
      rw [if_pos hle, Utf8.length_encode_cons]
      have hrest := ih (size - c.utf8Size) h
      omega
    next hlt =>
      cases h
      rw [if_neg hlt]
      simpa using hlt

/-- **What fits reaches as far as anything of the size.** -/
theorem fit_longest {size : Nat} {part : List Char} (rest : List Char)
    (h : (Utf8.encode part).length ≤ size) : (fit size (part ++ rest)).2 <:+ rest := by
  induction part generalizing size with
  | nil => exact ⟨_, fit_append size rest⟩
  | cons c part ih =>
    rw [Utf8.length_encode_cons] at h
    have hc : c.utf8Size ≤ size := by omega
    rw [List.cons_append, fit, if_pos hc]
    exact ih (by omega)

/-! ## 3. Chunks -/

variable {size : Nat}

theorem ne_nil_of_mem_chunksOf {text : List Char} {c : List Char × Bool}
    (hc : c ∈ chunksOf size text) : c.1 ≠ [] := by
  fun_induction chunksOf size text with
  | case1 => cases hc
  | case2 d cs taken rest ih =>
    rcases List.mem_cons.mp hc with rfl | hc
    · exact List.cons_ne_nil d taken
    · exact ih hc

/-- **No chunk is too long**, if the longest character is not. -/
theorem length_encode_le_of_mem_chunksOf (hsize : 4 ≤ size) {text : List Char}
    {c : List Char × Bool} (hc : c ∈ chunksOf size text) :
    (Utf8.encode c.1).length ≤ size := by
  fun_induction chunksOf size text with
  | case1 => cases hc
  | case2 d cs taken rest ih =>
    rcases List.mem_cons.mp hc with rfl | hc
    · have hd := d.utf8Size_le_four
      have htaken := length_encode_fit_le (size - d.utf8Size) cs
      rw [Utf8.length_encode_cons]
      change d.utf8Size + (Utf8.encode (fit (size - d.utf8Size) cs).1).length ≤ size
      omega
    · exact ih hc

/-- **Every chunk but the last** says that more follows. -/
theorem snd_getElem_chunksOf (text : List Char) : ∀ i (h : i < (chunksOf size text).length),
    (chunksOf size text)[i].2 = decide (i + 1 < (chunksOf size text).length) := by
  fun_induction chunksOf size text with
  | case1 =>
    intro i h
    cases h
  | case2 c cs taken rest ih =>
    intro i h
    cases i with
    | zero =>
      have hmore : rest.isEmpty = (chunksOf size rest).isEmpty := by
        rw [Bool.eq_iff_iff, List.isEmpty_iff, List.isEmpty_iff, chunksOf_eq_nil_iff]
      rw [List.getElem_cons_zero, List.length_cons, hmore]
      cases chunksOf size rest <;> simp
    | succ i =>
      have hrest := ih i (Nat.lt_of_succ_lt_succ h)
      rw [List.getElem_cons_succ, hrest, List.length_cons]
      simp

/-- **No chunk could take the next character.** -/
theorem isChain_chunksOf (text : List Char) :
    (chunksOf size text).IsChain fun a b =>
      ∀ next ∈ b.1.head?, size < (Utf8.encode (a.1 ++ [next])).length := by
  fun_induction chunksOf size text with
  | case1 => exact .nil
  | case2 c cs taken rest ih =>
    refine List.isChain_cons.mpr ⟨fun b hb next hnext => ?_, ih⟩
    -- The next chunk begins with what did not fit.
    obtain ⟨more, hmore⟩ : ∃ more, rest = next :: more := by
      cases hrest : rest with
      | nil =>
        rw [hrest, chunksOf] at hb
        cases hb
      | cons d ds =>
        rw [hrest, chunksOf] at hb
        cases hb
        cases hnext
        exact ⟨ds, rfl⟩
    have hfull := lt_length_encode_fit (size - c.utf8Size) cs hmore
    rw [List.cons_append, Utf8.length_encode_cons, Utf8.encode_append, List.length_append,
      Utf8.length_encode_cons]
    change size < c.utf8Size + ((Utf8.encode (fit (size - c.utf8Size) cs).1).length + _)
    simp only [Utf8.encode_nil, List.length_nil]
    omega

/-- **No pieces are fewer than the chunks**, even those of a text that the chunks are only the
end of. -/
theorem length_chunksOf_le_of_suffix {pieces : List (List Char)}
    (hshort : ∀ p ∈ pieces, (Utf8.encode p).length ≤ size) {text : List Char}
    (htext : text <:+ pieces.flatten) : (chunksOf size text).length ≤ pieces.length := by
  induction pieces generalizing text with
  | nil =>
    rw [List.suffix_nil.mp htext, chunksOf]
    exact Nat.le_refl 0
  | cons p ps ih =>
    have ih := fun {text} h => @ih (fun q hq => hshort q (List.mem_cons_of_mem _ hq)) text h
    obtain ⟨before, hbefore⟩ := htext
    rw [List.flatten_cons] at hbefore
    rcases List.append_eq_append_iff.mp hbefore with ⟨part, rfl, rfl⟩ | ⟨gone, rfl, hgone⟩
    · cases part with
      | nil => exact Nat.le_succ_of_le (ih List.suffix_rfl)
      | cons c part =>
        have hp := hshort _ List.mem_cons_self
        rw [Utf8.encode_append, List.length_append, Utf8.length_encode_cons] at hp
        have hfits : (Utf8.encode part).length ≤ size - c.utf8Size := by omega
        have hrest := ih (fit_longest ps.flatten hfits)
        rw [List.cons_append, chunksOf]
        exact Nat.succ_le_succ hrest
    · exact Nat.le_succ_of_le (ih ⟨gone, hgone.symm⟩)

/-- **The chunks are the text**, cut between characters. -/
theorem cutsInto_chunksOf (hsize : 4 ≤ size) (text : List Char) :
    CutsInto size text ((chunksOf size text).map fun c => Utf8.encode c.1) where
  whole := by
    have hwhole := congrArg Utf8.encode (flatMap_chunksOf size text)
    rw [List.flatMap_def, Utf8.encode_flatten, List.map_map] at hwhole
    exact hwhole
  between := by
    intro p hp
    obtain ⟨c, -, rfl⟩ := List.mem_map.mp hp
    exact ⟨c.1, Utf8.decode?_encode c.1⟩
  short := by
    intro p hp
    obtain ⟨c, hc, rfl⟩ := List.mem_map.mp hp
    exact length_encode_le_of_mem_chunksOf hsize hc

/-- **No way of cutting the text needs fewer pieces.** -/
theorem CutsInto.length_chunksOf_le {text : List Char} {pieces : List (List UInt8)}
    (h : CutsInto size text pieces) : (chunksOf size text).length ≤ pieces.length := by
  obtain ⟨texts, rfl⟩ := exists_texts h.between
  have hwhole : texts.flatten = text := by
    refine Utf8.encode_injective ?_
    rw [Utf8.encode_flatten, h.whole]
  have hshort : ∀ cs ∈ texts, (Utf8.encode cs).length ≤ size := by
    intro cs hcs
    exact h.short _ (List.mem_map_of_mem hcs)
  rw [List.length_map]
  exact length_chunksOf_le_of_suffix hshort (hwhole ▸ List.suffix_rfl)

/-! ## 4. Cutting from behind

The same chunks come of looking at bytes only: from the place where a chunk would be full, one
steps back to where a character begins.  Such a step need not get anywhere, and what it leaves
need not become less; that it does rests on the smallest chunk size. -/

/-- No character is cut at this place of some bytes. -/
def boundary (bytes : List UInt8) (i : Nat) : Bool :=
  i == 0 || i == bytes.length || bytes[i]?.any fun b => b.IsUTF8FirstByte

/-- Steps back from a place until no character is cut. -/
def stepBack (bytes : List UInt8) : Nat → Nat
  | 0 => 0
  | i + 1 => if boundary bytes (i + 1) then i + 1 else stepBack bytes i

/-- One chunk of some bytes, the mark whether more follows, and the rest. -/
def cut? (size : Nat) (bytes : List UInt8) : Option ((List UInt8 × Bool) × List UInt8) :=
  if bytes.isEmpty then none
  else
    let stop := if bytes.length ≤ size then bytes.length else stepBack bytes size
    some ((bytes.take stop, !(bytes.drop stop).isEmpty), bytes.drop stop)

/-- Chunk after chunk is cut off some bytes, until none are left. -/
inductive Cuts (size : Nat) : List UInt8 → List (List UInt8 × Bool) → Prop
  | done {bytes} (h : cut? size bytes = none) : Cuts size bytes []
  | more {bytes chunk rest chunks} (h : cut? size bytes = some (chunk, rest))
      (hrest : Cuts size rest chunks) : Cuts size bytes (chunk :: chunks)

/-- Stepping back ends at the last place where no character is cut. -/
theorem stepBack_eq {bytes : List UInt8} {i j : Nat} (hij : i ≤ j) (hi : boundary bytes i)
    (hbetween : ∀ k, i < k → k ≤ j → boundary bytes k = false) : stepBack bytes j = i := by
  induction j with
  | zero =>
    rw [stepBack]
    omega
  | succ j ih =>
    rw [stepBack]
    rcases Nat.lt_or_eq_of_le hij with hlt | rfl
    · rw [if_neg (by simp [hbetween (j + 1) hlt (Nat.le_refl _)])]
      exact ih (by omega) fun k hk hkj => hbetween k hk (by omega)
    · rw [if_pos hi]

/-- **A character is cut within it**, and not before its first byte. -/
theorem boundary_add (before : List UInt8) (c : Char) (after : List Char) {j : Nat}
    (hj : j < c.utf8Size) :
    boundary (before ++ Utf8.encode (c :: after)) (before.length + j) = (j == 0) := by
  have hin : j < (String.utf8EncodeChar c).length := by
    rw [String.length_utf8EncodeChar]
    exact hj
  have hbyte : (before ++ Utf8.encode (c :: after))[before.length + j]? =
      some (String.utf8EncodeChar c)[j] := by
    rw [List.getElem?_append_right (Nat.le_add_right _ _), Nat.add_sub_cancel_left]
    change (String.utf8EncodeChar c ++ Utf8.encode after)[j]? = _
    rw [List.getElem?_append_left hin, List.getElem?_eq_getElem hin]
  have hend : before.length + j ≠ (before ++ Utf8.encode (c :: after)).length := by
    rw [List.length_append, Utf8.length_encode_cons]
    omega
  have hfirst : ((String.utf8EncodeChar c)[j]).IsUTF8FirstByte ↔ j = 0 :=
    UInt8.isUTF8FirstByte_getElem_utf8EncodeChar
  rw [boundary, hbyte, Option.any_some, beq_eq_false_iff_ne.mpr hend, Bool.eq_iff_iff]
  simp only [Bool.or_eq_true, Bool.false_eq_true, or_false, decide_eq_true_eq, beq_iff_eq, hfirst]
  omega

/-- **One step cuts off what fits.** -/
theorem cut?_encode (size : Nat) {cs : List Char} (hcs : cs ≠ []) :
    cut? size (Utf8.encode cs) =
      some ((Utf8.encode (fit size cs).1, !(fit size cs).2.isEmpty),
        Utf8.encode (fit size cs).2) := by
  obtain ⟨part, rest, hfit⟩ : ∃ part rest, fit size cs = (part, rest) := ⟨_, _, rfl⟩
  have hcut : Utf8.encode cs = Utf8.encode part ++ Utf8.encode rest := by
    rw [← Utf8.encode_append, ← fit_append size cs, hfit]
  have hpart : (Utf8.encode part).length ≤ size := by
    simpa [hfit] using length_encode_fit_le size cs
  have hstop : (if (Utf8.encode cs).length ≤ size then (Utf8.encode cs).length
      else stepBack (Utf8.encode cs) size) = (Utf8.encode part).length := by
    rw [hcut]
    cases rest with
    | nil => simp [hpart]
    | cons next more =>
      have hfull : size < (Utf8.encode part).length + next.utf8Size := by
        simpa [hfit] using lt_length_encode_fit size cs (by rw [hfit])
      rw [if_neg (by rw [List.length_append, Utf8.length_encode_cons]; omega)]
      refine stepBack_eq hpart (boundary_add _ next more next.utf8Size_pos) fun k hk hks => ?_
      obtain ⟨j, rfl⟩ := Nat.exists_eq_add_of_le (Nat.le_of_lt hk)
      rw [boundary_add _ next more (by omega), beq_eq_false_iff_ne]
      omega
  have hsome : (Utf8.encode cs).isEmpty = false := by
    rw [Utf8.isEmpty_encode]
    simpa using hcs
  rw [cut?, hsome, hfit]
  simp only [Bool.false_eq_true, if_false, hstop]
  rw [hcut, List.take_left, List.drop_left, Utf8.isEmpty_encode]

/-- **Cutting from behind comes to an end**, with the chunks of the text. -/
theorem cuts_chunksOf (hsize : 4 ≤ size) (text : List Char) :
    Cuts size (Utf8.encode text) ((chunksOf size text).map fun c => (Utf8.encode c.1, c.2)) := by
  fun_induction chunksOf size text with
  | case1 => exact .done rfl
  | case2 c cs taken rest ih =>
    have hc : c.utf8Size ≤ size := Nat.le_trans c.utf8Size_le_four hsize
    refine .more ?_ ih
    rw [cut?_encode size (List.cons_ne_nil c cs), fit, if_pos hc]

/-- **Chunks are lossless, bounded and as few as can be**, for any text, capacity and size asked
for.  Cutting them off the bytes of the text comes to an end.  They make up the text, none is
empty, all but the last say that more follows, none but the last could take the next character,
and whatever pieces the text is cut into, there are no fewer of them. -/
theorem chunks_greedy (s : EventLimits) (text : List Char) :
    let size := max 4 (min s.requested s.capacity)
    let chunks := s.chunks text
    Cuts size (Utf8.encode text) (chunks.map fun c => (Utf8.encode c.1, c.2)) ∧
    CutsInto size text (chunks.map fun c => Utf8.encode c.1) ∧
    (∀ c ∈ chunks, c.1 ≠ []) ∧ (text = [] → chunks = []) ∧
    (∀ i (h : i < chunks.length), chunks[i].2 = decide (i + 1 < chunks.length)) ∧
    (chunks.IsChain fun a b =>
      ∀ next ∈ b.1.head?, size < (Utf8.encode (a.1 ++ [next])).length) ∧
    ∀ pieces, CutsInto size text pieces → chunks.length ≤ pieces.length := by
  intro size chunks
  have hsize : 4 ≤ size := Nat.le_max_left _ _
  exact ⟨cuts_chunksOf hsize text, cutsInto_chunksOf hsize text,
    fun c hc => ne_nil_of_mem_chunksOf hc, chunksOf_eq_nil_iff.mpr, snd_getElem_chunksOf text,
    isChain_chunksOf text, fun pieces h => h.length_chunksOf_le⟩

/-- Four letters, one of two bytes and one of four, in a buffer of five bytes: the second chunk
has room for three more bytes, but not for the last letter. -/
theorem chunks_greedy_of_five :
    let text := ['a', 'b', 'c', 'd', 'é', '😀']
    let pieces := [['a', 'b', 'c'], ['d'], ['é'], ['😀']].map Utf8.encode
    CutsInto 5 text pieces ∧
    chunks ⟨5, 63⟩ text = [(['a', 'b', 'c', 'd'], true), (['é'], true), (['😀'], false)] ∧
    (chunks ⟨5, 63⟩ text).length ≤ pieces.length := by
  intro text pieces
  have hpieces : CutsInto 5 text pieces := by
    refine ⟨by decide, fun p hp => ?_, by decide⟩
    obtain ⟨cs, -, rfl⟩ := List.mem_map.mp hp
    exact ⟨cs, Utf8.decode?_encode cs⟩
  have hfirst : fit (5 - 'a'.utf8Size) ['b', 'c', 'd', 'é', '😀'] =
      (['b', 'c', 'd'], ['é', '😀']) := by decide
  have hsecond : fit (5 - 'é'.utf8Size) ['😀'] = ([], ['😀']) := by decide
  have hthird : fit (5 - '😀'.utf8Size) [] = ([], []) := rfl
  have hchunks : chunks ⟨5, 63⟩ text =
      [(['a', 'b', 'c', 'd'], true), (['é'], true), (['😀'], false)] := by
    simp [text, chunks, chunkSize, minChunkSize, chunksOf, hfirst, hsecond, hthird]
  obtain ⟨-, -, -, -, -, -, hfewest⟩ := chunks_greedy ⟨5, 63⟩ text
  exact ⟨hpieces, hchunks, hfewest pieces hpieces⟩

end EventLimits

end IrrigationLog
