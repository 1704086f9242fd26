import PolyDeriv.Integer.Checked
import PolyDeriv.Token.Class

/-!
# Decimal text of integers

An integer is written with a minus sign if it is negative and without superfluous zeros.  Reading is more liberal:
any number of leading zeros is allowed, and so is a minus sign in front of zero.  The exact value of the digits is
found first and compared with the 64-bit range afterwards, so the length of a text does not matter.

The key fact is `readInteger_write`: the text of a 64-bit integer is read back as that integer.
-/

namespace PolyDeriv

namespace Decimal

/-- The characters of an integer's decimal text. -/
def chars (n : Int) : List Char :=
  if n < 0 then '-' :: Nat.toDigits 10 n.natAbs else Nat.toDigits 10 n.natAbs

/-- The decimal text of an integer. -/
def write (n : Int) : String := String.ofList (chars n)

/-- The exact value of digits behind an optional minus sign. -/
def value : List Char → Int
  | '-' :: digits => -(Nat.ofDigitChars 10 digits 0)
  | digits => Nat.ofDigitChars 10 digits 0

end Decimal

/-- Why a text is not a 64-bit integer. -/
inductive IntegerFault
  | malformed
  | tooLarge
  | tooSmall
deriving DecidableEq

/-- Reads a 64-bit integer. -/
def readInteger (text : String) : Except IntegerFault Int64 :=
  if TokenClass.integer.accepts text then
    match narrow? (Decimal.value text.toList) with
    | some n => .ok n
    | none => .error (if Decimal.value text.toList < 0 then .tooSmall else .tooLarge)
  else .error .malformed

/-- The decimal text of a count. -/
def writeCount (n : Nat) : String := Decimal.write n

/-- The decimal text of a 64-bit integer. -/
def writeInteger (n : Int64) : String := Decimal.write n.toInt

/-! ### Reading what was written -/

private theorem isDigit_of_mem_toDigits {n : Nat} {c : Char} (h : c ∈ Nat.toDigits 10 n) : c.isDigit :=
  Nat.isDigit_of_mem_toDigits (by decide) (by decide) h

theorem Decimal.value_chars (n : Int) : Decimal.value (Decimal.chars n) = n := by
  unfold chars
  split
  · simp only [value, Nat.ofDigitChars_ten_toDigits]
    omega
  · unfold value
    split
    · next h =>
      have : '-' ∈ Nat.toDigits 10 n.natAbs := by simp [h]
      exact absurd (isDigit_of_mem_toDigits this) (by decide)
    · rw [Nat.ofDigitChars_ten_toDigits]
      omega

/-- The decimal text of an integer is an integer token. -/
theorem Decimal.accepts_write (n : Int) : TokenClass.integer.accepts (write n) := by
  rw [accepts_integer_iff, write, String.toList_ofList, chars]
  refine ⟨Nat.toDigits 10 n.natAbs, Nat.toDigits_ne_nil, fun c h => isDigit_of_mem_toDigits h, ?_⟩
  split
  · exact .inr rfl
  · exact .inl rfl

@[simp] theorem readInteger_write (n : Int64) : readInteger (writeInteger n) = .ok n := by
  rw [readInteger, writeInteger, if_pos (Decimal.accepts_write _), Decimal.write, String.toList_ofList,
    Decimal.value_chars, narrow?_toInt]

end PolyDeriv
