/-!
# Numbers of 32 bits in decimal

Reading allows one plus sign and leading zeros, and nothing else around the digits. Writing gives
the shortest form.
-/
namespace Schemata.Text

/-- Numbers that are read stay below this one. -/
def wordLimit : Nat := 4294967296

def unsigned : List Char → List Char
  | '+' :: digits => digits
  | digits => digits

/-- The number that the text spells, if it spells one below `wordLimit`. -/
def readWord? (s : List Char) : Option Nat :=
  let digits := unsigned s
  if digits != [] && digits.all Char.isDigit then
    let n := Nat.ofDigitChars 10 digits 0
    if n < wordLimit then some n else none
  else none

/-- The decimal digits of a number. -/
def decimal (n : Nat) : List Char := Nat.toDigits 10 n

theorem decimal_ne_nil (n : Nat) : decimal n ≠ [] := Nat.toDigits_ne_nil

theorem isDigit_of_mem_decimal {n : Nat} {c : Char} (h : c ∈ decimal n) : c.isDigit = true :=
  Nat.isDigit_of_mem_toDigits (by decide) (by decide) h

theorem unsigned_decimal (n : Nat) : unsigned (decimal n) = decimal n := by
  unfold unsigned
  split
  · rename_i digits h
    have := isDigit_of_mem_decimal (n := n) (c := '+') (by simp [h])
    simp at this
  · rfl

/-- A number that is small enough reads back from its digits. -/
theorem readWord?_decimal {n : Nat} (h : n < wordLimit) : readWord? (decimal n) = some n := by
  have hall : (decimal n).all Char.isDigit = true :=
    List.all_eq_true.2 fun _ => isDigit_of_mem_decimal
  have hv : Nat.ofDigitChars 10 (decimal n) 0 = n := Nat.ofDigitChars_ten_toDigits
  simp [readWord?, unsigned_decimal, decimal_ne_nil, hall, hv, h]

end Schemata.Text
