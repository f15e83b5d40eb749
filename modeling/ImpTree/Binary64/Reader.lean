import ImpTree.Binary64
import ImpTree.Json

/-!
# Reading binary numbers

A written number is read in two roundings: its leading digits, as many as fit into 64 bits, make a
whole number, and one product or quotient with a power of ten moves the point.  The result is the
nearest binary number for short numerals and within a few units in the last place for long ones.

* `Binary64.significandOf` — the leading digits, and where the point stands.
* `Binary64.scaled?` — a whole number times a power of ten.
* `Binary64.ofNumeral?` — the number that a numeral is read as; none beyond the greatest finite one.
-/

namespace ImpTree.Binary64

/-! ## Leading digits -/

/-- Appends digits to a whole number as long as it fits into 64 bits; the rest is left. -/
def appendDigits (limit n : Nat) : List Char → Nat × List Char
  | [] => (n, [])
  | c :: rest =>
    let next := 10 * n + (c.toNat - 48)
    if next < limit then appendDigits limit next rest else (n, c :: rest)

/-- The leading digits of a numeral as a whole number, with the power of ten that they count.
Digits before the point that do not fit raise the power; those after it are left out. -/
def significandOf (n : Numeral) : Nat × Int :=
  let (whole, overflow) := appendDigits (Nat.pow 2 64) 0 n.whole
  let (both, left) := appendDigits (Nat.pow 2 64) whole n.fraction
  (both, (overflow.length : Int) - ((n.fraction.length - left.length : Nat) : Int))

/-! ## Powers of ten -/

/-- The pattern nearest to a product of two patterns' numbers. -/
def mulPattern (a b : Nat) : Nat :=
  nearestPattern (units a * units b) (Nat.pow 2 1074 * Nat.pow 2 1074)

/-- The pattern nearest to a quotient of two patterns' numbers. -/
def divPattern (a b : Nat) : Nat := nearestPattern (units a) (units b)

/-- The pattern nearest to a power of ten. -/
def tenPattern (exponent : Nat) : Nat := nearestPattern (Nat.pow 10 exponent) 1

/-- Divides by `10 ^ exponent`, in steps of at most 308. -/
def dividedByTens (pattern exponent : Nat) : Nat :=
  if exponent ≤ 308 then divPattern pattern (tenPattern exponent)
  else if pattern = 0 then 0
  else dividedByTens (divPattern pattern (tenPattern 308)) (exponent - 308)
termination_by exponent
decreasing_by omega

/-- A whole number times a power of ten; none beyond the greatest finite number. -/
def scaled? (significand : Nat) (exponent : Int) : Option Nat :=
  let pattern := nearestPattern significand 1
  if 0 ≤ exponent then
    if exponent ≤ 308 then
      let product := mulPattern pattern (tenPattern exponent.toNat)
      if product < infinityPattern then some product else none
    else if pattern = 0 then some 0
    else none
  else some (dividedByTens pattern (-exponent).toNat)

/-- The greatest exponent that is looked at digit by digit. -/
def exponentLimit : Nat := Nat.pow 2 31

/-- An exponent brought into the range of 32-bit integers. -/
def clampExponent (n : Int) : Int := max (-Int.pow 2 31) (min n (Int.pow 2 31 - 1))

/-- The pattern that a numeral without its sign is read as. -/
def patternOfNumeral? (n : Numeral) : Option Nat :=
  let (significand, start) := significandOf n
  match n.exponent with
  | none => scaled? significand start
  | some (negative, digits) =>
    match appendDigits exponentLimit 0 digits with
    | (magnitude, []) =>
      scaled? significand (clampExponent (start + signed negative magnitude))
    | (_, _ :: _) => if significand ≠ 0 && !negative then none else some 0

/-- The number that a numeral is read as; none beyond the greatest finite number. -/
def ofNumeral? (n : Numeral) : Option Binary64 :=
  (patternOfNumeral? n).map fun pattern => ⟨n.negative, pattern⟩

end ImpTree.Binary64
