/-
# Decimal numerals

Every number of the program is written in base ten without padding, except for the parts of a
file name and of a calendar text, which are padded with zeros.  Reading is more generous than
writing: a plus sign and leading zeros are accepted, and a signed number may have a minus
sign.  Nothing else is: no blanks, no grouping marks, no digits outside `0`..`9`.

* `decimal`, `signed`, `padded`, `signedPadded` write;
* `readDigits?`, `readUnsigned?`, `readSigned?` read;
* `readUnsigned?_decimal` and `readSigned?_signed`: reading takes back what writing made.
-/

namespace IrrigationLog.Text

/-! ## 1. Writing -/

/-- A natural number in base ten. -/
def decimal (n : Nat) : List Char := Nat.toDigits 10 n

/-- A whole number in base ten, with a minus sign when it is below zero. -/
def signed : Int → List Char
  | .ofNat n => decimal n
  | .negSucc n => '-' :: decimal (n + 1)

/-- A natural number with zeros in front up to a width. -/
def padded (width n : Nat) : List Char :=
  List.replicate (width - (decimal n).length) '0' ++ decimal n

/-- A whole number with zeros in front up to a width; a minus sign takes one place of it. -/
def signedPadded (width : Nat) : Int → List Char
  | .ofNat n => padded width n
  | .negSucc n => '-' :: padded (width - 1) (n + 1)

/-- Text moved to the right end of a field of the given width. -/
def rightAligned (width : Nat) (cs : List Char) : List Char :=
  List.replicate (width - cs.length) ' ' ++ cs

/-- Text moved to the left end of a field of the given width. -/
def leftAligned (width : Nat) (cs : List Char) : List Char :=
  cs ++ List.replicate (width - cs.length) ' '

/-! ## 2. Reading -/

/-- The number that a non-empty run of digits denotes. -/
def readDigits? (cs : List Char) : Option Nat :=
  if cs ≠ [] ∧ cs.all Char.isDigit then some (Nat.ofDigitChars 10 cs 0) else none

/-- Digits after an optional plus sign. -/
def readUnsigned? : List Char → Option Nat
  | '+' :: cs => readDigits? cs
  | cs => readDigits? cs

/-- Digits after an optional plus or minus sign. -/
def readSigned? : List Char → Option Int
  | '-' :: cs => (readDigits? cs).map fun n => -(n : Int)
  | cs => (readUnsigned? cs).map Int.ofNat

/-- A number below 2^8. -/
def readUInt8? (cs : List Char) : Option UInt8 :=
  (readUnsigned? cs).bind fun n => if n < UInt8.size then some (.ofNat n) else none

/-- A number below 2^16. -/
def readUInt16? (cs : List Char) : Option UInt16 :=
  (readUnsigned? cs).bind fun n => if n < UInt16.size then some (.ofNat n) else none

/-- A number from -2^31 up to 2^31, the latter left out. -/
def readInt32? (cs : List Char) : Option Int32 :=
  (readSigned? cs).bind fun n =>
    if Int32.minValue.toInt ≤ n ∧ n ≤ Int32.maxValue.toInt then some (.ofInt n) else none

/-! ## 3. Reading takes back what writing made -/

/-- A digit lies between `0` and `9`. -/
theorem toNat_of_isDigit {c : Char} (h : c.isDigit = true) : 48 ≤ c.toNat ∧ c.toNat ≤ 57 := by
  simp only [Char.isDigit, Bool.and_eq_true, decide_eq_true_eq, ge_iff_le] at h
  exact ⟨UInt32.le_iff_toNat_le.mp h.1, UInt32.le_iff_toNat_le.mp h.2⟩

theorem decimal_ne_nil (n : Nat) : decimal n ≠ [] := Nat.toDigits_ne_nil

theorem isDigit_of_mem_decimal {n : Nat} {c : Char} (h : c ∈ decimal n) : c.isDigit = true :=
  Nat.isDigit_of_mem_toDigits (by omega) (by omega) h

theorem readDigits?_decimal (n : Nat) : readDigits? (decimal n) = some n := by
  have hall : (decimal n).all Char.isDigit = true :=
    List.all_eq_true.mpr fun _ h => isDigit_of_mem_decimal h
  rw [readDigits?, if_pos ⟨decimal_ne_nil n, hall⟩, decimal, Nat.ofDigitChars_ten_toDigits]

/-- A numeral does not start with a sign. -/
theorem head_decimal_isDigit {n : Nat} {c : Char} {cs : List Char} (h : decimal n = c :: cs) :
    c.isDigit = true :=
  isDigit_of_mem_decimal (h ▸ List.mem_cons_self)

theorem readUnsigned?_decimal (n : Nat) : readUnsigned? (decimal n) = some n := by
  unfold readUnsigned?
  split
  · rename_i cs h
    exact absurd (head_decimal_isDigit h) (by decide)
  · exact readDigits?_decimal n

theorem readSigned?_decimal (n : Nat) : readSigned? (decimal n) = some (n : Int) := by
  unfold readSigned?
  split
  · rename_i cs h
    exact absurd (head_decimal_isDigit h) (by decide)
  · rw [readUnsigned?_decimal]; rfl

theorem readSigned?_signed : ∀ i : Int, readSigned? (signed i) = some i
  | .ofNat n => readSigned?_decimal n
  | .negSucc n => by simp [signed, readSigned?, readDigits?_decimal, Int.negSucc_eq]

theorem readUInt8?_decimal (n : UInt8) : readUInt8? (decimal n.toNat) = some n := by
  rw [readUInt8?, readUnsigned?_decimal]
  simp [n.toNat_lt]

theorem readUInt16?_decimal (n : UInt16) : readUInt16? (decimal n.toNat) = some n := by
  rw [readUInt16?, readUnsigned?_decimal]
  simp [n.toNat_lt]

theorem readInt32?_signed (n : Int32) : readInt32? (signed n.toInt) = some n := by
  have h : Int32.minValue.toInt ≤ n.toInt ∧ n.toInt ≤ Int32.maxValue.toInt :=
    ⟨n.minValue_le_toInt, n.toInt_le⟩
  rw [readInt32?, readSigned?_signed, Option.bind_some, if_pos h, Int32.ofInt_toInt]

end IrrigationLog.Text
