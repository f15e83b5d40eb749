/-!
# Decimal digits and written integers

* `Digits.ofNat`, `Digits.value` — the digits of a natural number, and the number that digits spell.
* `Integer.sign`, `Integer.magnitude`, `Integer.text` — the written form of an integer.
* `Integer.parse?` — reads one sign at most, then a digit, then digits and underscores.
-/

namespace ImpTree

/-! ## Digits -/

namespace Digits

/-- The decimal digits of a natural number, without leading zeros. -/
def ofNat (n : Nat) : List Char := Nat.toDigits 10 n

/-- The number that a list of decimal digits spells; 0 for the empty list. -/
def value (digits : List Char) : Nat := Nat.ofDigitChars 10 digits 0

/-- Reading the digits of a number gives the number back. -/
@[simp]
theorem value_ofNat (n : Nat) : value (ofNat n) = n :=
  Nat.ofDigitChars_toDigits (by decide) (by decide)

/-- The digits of a number are decimal digits. -/
theorem isDigit_of_mem_ofNat {n : Nat} {c : Char} (h : c ∈ ofNat n) : c.isDigit = true :=
  Nat.isDigit_of_mem_toDigits (by decide) (by decide) h

end Digits

/-! ## Signs -/

/-- Splits a leading sign off a text: is it a minus, and what follows? -/
def splitSign : List Char → Bool × List Char
  | '-' :: rest => (true, rest)
  | '+' :: rest => (false, rest)
  | text => (false, text)

/-- The integer of a given magnitude, negated on demand. -/
def signed (negative : Bool) (magnitude : Nat) : Int :=
  if negative then -(magnitude : Int) else magnitude

/-! ## Integers -/

namespace Integer

/-- The sign that is written before the digits: a minus, or nothing. -/
def sign (n : Int) : String := if n < 0 then "-" else ""

/-- The digits that are written after the sign. -/
def magnitude (n : Int) : String := String.ofList (Digits.ofNat n.natAbs)

/-- The written form of an integer. -/
def text (n : Int) : String := sign n ++ magnitude n

/-- May the character stand after the first digit? -/
def isTail (c : Char) : Bool := c.isDigit || c == '_'

/-- Reads an integer: at most one sign, a digit, then digits and underscores.  Underscores only
separate digits for the eye. -/
def parse? (s : String) : Option Int :=
  let (negative, body) := splitSign s.toList
  match body with
  | [] => none
  | first :: rest =>
    if first.isDigit && rest.all isTail then
      some (signed negative (Digits.value (first :: rest.filter Char.isDigit)))
    else none

end Integer

end ImpTree
