/-
# Chunks of a system event

A system event goes to its listener in chunks.  A chunk has at most as many bytes as the
limits allow, is cut between characters only, and is as long as that permits; every chunk but
the last says that more follows.  The chunk size is at least four bytes, so any character
fits into a chunk and the cutting comes to an end.
-/

namespace IrrigationLog

/-- The limits on the chunks of an event, in bytes. -/
structure EventLimits where
  /-- The size of the buffer that is emptied into the listener. -/
  capacity : Nat
  /-- The size asked for. -/
  requested : Nat
  deriving DecidableEq

namespace EventLimits

/-- The limits of a station that sets none. -/
def standard : EventLimits := ⟨256, 63⟩

instance : Inhabited EventLimits := ⟨standard⟩

/-- The smallest chunk size; every character has at most four bytes. -/
def minChunkSize : Nat := 4

/-- The largest chunk: never above the buffer, and never too small for a character. -/
def chunkSize (s : EventLimits) : Nat := max minChunkSize (min s.requested s.capacity)

/-- The longest start of a text that has at most the given number of bytes, and the rest. -/
def fit (size : Nat) : List Char → List Char × List Char
  | [] => ([], [])
  | c :: cs =>
    if c.utf8Size ≤ size then
      let (taken, rest) := fit (size - c.utf8Size) cs
      (c :: taken, rest)
    else ([], c :: cs)

/-- What does not fit is no longer than the text. -/
theorem length_fit_snd_le (size : Nat) (cs : List Char) : (fit size cs).2.length ≤ cs.length := by
  induction cs generalizing size with
  | nil => simp [fit]
  | cons c cs ih =>
    rw [fit]
    split
    · have := ih (size - c.utf8Size)
      simp only [List.length_cons]
      omega
    · exact Nat.le_refl _

/-- The chunks of a text, each with the mark whether more follows. -/
def chunksOf (size : Nat) : List Char → List (List Char × Bool)
  | [] => []
  | c :: cs =>
    let taken := (fit (size - c.utf8Size) cs).1
    let rest := (fit (size - c.utf8Size) cs).2
    (c :: taken, !rest.isEmpty) :: chunksOf size rest
termination_by cs => cs.length
decreasing_by
  have := length_fit_snd_le (size - c.utf8Size) cs
  simp only [List.length_cons]
  omega

/-- The chunks of a text under the limits. -/
def chunks (s : EventLimits) (cs : List Char) : List (List Char × Bool) := chunksOf s.chunkSize cs

end EventLimits

end IrrigationLog
