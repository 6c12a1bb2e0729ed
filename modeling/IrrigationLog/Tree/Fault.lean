/-
# Disks that fail

A file is opened or created first, and then the disk may take only some of the bytes that are to
be written to it.  What it took stays in the file.

A `WriteFault` is about what one operation writes to one file, and every operation meets it anew.
So a fault that stays is a disk on which all long writes fail alike.  A disk that fills up is a
fault that changes from one operation to the next.
-/

namespace IrrigationLog

/-- A disk that takes a number of bytes of what is written to a file, and fails on the next. -/
structure WriteFault where
  /-- The number of bytes that are taken. -/
  room : Nat
  /-- Why no more are. -/
  cause : String
  deriving DecidableEq

namespace WriteFault

/-- The bytes that reach a file, and why the others do not, if there are any. -/
def taken (fault : Option WriteFault) (bytes : List UInt8) : List UInt8 × Option String :=
  match fault with
  | none => (bytes, none)
  | some f =>
    if bytes.length ≤ f.room then (bytes, none) else (bytes.take f.room, some f.cause)

/-- Without a fault everything is taken. -/
@[simp]
theorem taken_none (bytes : List UInt8) : taken none bytes = (bytes, none) := rfl

/-- A fault cuts a write short: a beginning of the bytes is taken, and not all of them. -/
def Cuts (fault : Option WriteFault) (bytes part : List UInt8) : Prop :=
  ∃ f, fault = some f ∧ f.room < bytes.length ∧ part = bytes.take f.room

/-- Without a fault no write is cut short. -/
theorem not_cuts_none (bytes part : List UInt8) : ¬ Cuts none bytes part := by
  rintro ⟨f, hf, -⟩
  cases hf

/-- **A write is taken as a whole, or it is cut short.** -/
theorem taken_cases (fault : Option WriteFault) (bytes : List UInt8) :
    taken fault bytes = (bytes, none) ∨
      ∃ part cause, taken fault bytes = (part, some cause) ∧ Cuts fault bytes part := by
  cases fault with
  | none => exact Or.inl rfl
  | some f =>
    unfold taken
    by_cases hroom : bytes.length ≤ f.room
    · exact Or.inl (if_pos hroom)
    · exact Or.inr ⟨_, f.cause, if_neg hroom, f, rfl, Nat.lt_of_not_le hroom, rfl⟩

end WriteFault

end IrrigationLog
