/-
# Text as bytes

Files hold bytes.  Text is written to them in UTF-8 and read back from UTF-8; bytes that are
no UTF-8 denote no text at all, they are never repaired.

* `Utf8.encode`, `Utf8.decode?`;
* `decode?_encode`: what was written is read back;
* `eq_encode_of_decode?`: each text has one written form.
-/

namespace IrrigationLog.Utf8

/-- The bytes of a text. -/
def encode (cs : List Char) : List UInt8 := cs.flatMap String.utf8EncodeChar

/-- The text of the bytes, if they are well-formed. -/
def decode? (bytes : List UInt8) : Option (List Char) :=
  (bytes.toByteArray.utf8Decode?).map Array.toList

@[simp]
theorem encode_nil : encode [] = [] := rfl

@[simp]
theorem encode_append (cs ds : List Char) : encode (cs ++ ds) = encode cs ++ encode ds := by
  simp [encode]

/-- What was written is read back. -/
theorem decode?_encode (cs : List Char) : decode? (encode cs) = some cs := by
  have h : (encode cs).toByteArray = cs.utf8Encode := rfl
  rw [decode?, h, List.utf8Decode?_utf8Encode]
  rfl

/-- Each text has one written form. -/
theorem eq_encode_of_decode? {bytes : List UInt8} {cs : List Char}
    (h : decode? bytes = some cs) : bytes = encode cs := by
  obtain ⟨a, ha, rfl⟩ := Option.map_eq_some_iff.mp h
  have hs : bytes.toByteArray.utf8Decode?.isSome = true := by simp [ha]
  have he := ByteArray.utf8Encode_get_utf8Decode? (h := hs)
  simp only [ha, Option.get_some] at he
  simpa [encode, List.utf8Encode] using congrArg (·.data.toList) he.symm

end IrrigationLog.Utf8
