import ImpTree.Digits
import ImpTree.Rounding
import ImpTree.Binary64

/-!
# Decimal numbers

A decimal number is an unscaled integer together with a scale, and stands for
`unscaled / 10 ^ scale`.  The scale is part of the number's written form but not of its size:
`1.0` and `1.00` are written differently and are equal in size.  Integers are of any size, scales
are numbers of 32 bits.

* `Decimal.scale`, `Decimal.maxScale` — scales.
* `Decimal.add`, `Decimal.sub`, `Decimal.mul` — arithmetic, exact as long as the scale of the result
  is a number of 32 bits.
* `Decimal.div?` — the quotient at the scale of the dividend, a half going to the even neighbour.
* `Decimal.order` — comparison by size.
* `Decimal.toBinary64` — the nearest binary floating-point number.
* `Decimal.text`, `Decimal.parse?` — the written form and its reader.
-/

namespace ImpTree

/-- The number `unscaled / 10 ^ scale`. -/
structure Decimal where
  /-- The digits with their sign, the point left out. -/
  unscaled : Int
  /-- How many digits stand after the point, as a number of 32 bits. -/
  places : BitVec 32
  deriving DecidableEq, Inhabited

namespace Decimal

/-! ## Scales -/

/-- How many digits stand after the point. -/
def scale (d : Decimal) : Nat := d.places.toNat

/-- The greatest number of 32 bits. -/
def maxScale : Nat := 4294967295

/-- The larger of two scales. -/
def commonPlaces (a b : Decimal) : BitVec 32 :=
  if a.scale ≤ b.scale then b.places else a.places

/-! ## Arithmetic -/

/-- Is the number zero in size? -/
def isZero (d : Decimal) : Bool := d.unscaled == 0

/-- The unscaled integer that the number has when it is written at a larger scale. -/
def unscaledAt (d : Decimal) (scale : Nat) : Int := d.unscaled * Int.pow 10 (scale - d.scale)

/-- The exact sum, at the larger of the two scales. -/
def add (a b : Decimal) : Decimal :=
  let places := a.commonPlaces b
  ⟨a.unscaledAt places.toNat + b.unscaledAt places.toNat, places⟩

/-- The exact difference, at the larger of the two scales. -/
def sub (a b : Decimal) : Decimal :=
  let places := a.commonPlaces b
  ⟨a.unscaledAt places.toNat - b.unscaledAt places.toNat, places⟩

/-- The product of the unscaled integers, at the sum of the scales.  The sum is one of 32 bits:
where it is too large it wraps around, and then the product is not exact. -/
def mul (a b : Decimal) : Decimal := ⟨a.unscaled * b.unscaled, a.places + b.places⟩

/-- The quotient at the dividend's scale, rounded to the nearest such number and to the even one of
two equally near; there is none for a zero divisor. -/
def div? (a b : Decimal) : Option Decimal :=
  if b.isZero then none
  else
    let magnitude := roundedQuotient (a.unscaled.natAbs * Nat.pow 10 b.scale) b.unscaled.natAbs
    some ⟨signed (decide (a.unscaled < 0) != decide (b.unscaled < 0)) magnitude, a.places⟩

/-- Comparison by size: the scale does not matter. -/
def order (a b : Decimal) : Ordering :=
  let scale := max a.scale b.scale
  compare (a.unscaledAt scale) (b.unscaledAt scale)

/-- Are the numbers equal in size? -/
def same (a b : Decimal) : Bool := a.order b == .eq

/-- The nearest binary floating-point number, infinite beyond the greatest finite one.  Only a
negative unscaled integer sets the sign bit, so there is no negative zero from `-0.0`. -/
def toBinary64 (d : Decimal) : Binary64 :=
  .nearest (decide (d.unscaled < 0)) d.unscaled.natAbs (Nat.pow 10 d.scale)

/-! ## Written form -/

/-- The digits before and after the point: at least one before it, exactly `scale` after it. -/
def digitParts (d : Decimal) : List Char × List Char :=
  let digits := Digits.ofNat d.unscaled.natAbs
  let padded := List.replicate (d.scale + 1 - digits.length) '0' ++ digits
  padded.splitAt (padded.length - d.scale)

/-- The pieces of the written form, in order: sign, digits and, at a positive scale, a point and the
digits after it. -/
def pieces (d : Decimal) : List String :=
  let parts := d.digitParts
  let whole := [Integer.sign d.unscaled, String.ofList parts.1]
  if d.scale = 0 then whole else whole ++ [".", String.ofList parts.2]

/-- The written form of the number. -/
def text (d : Decimal) : String := String.join d.pieces

/-- Reads a decimal number: at most one sign, at least one digit and, if a point follows, further
digits, of which there are as many as the scale says.  There may be none of them, but not more than
a scale can say. -/
def parse? (s : String) : Option Decimal :=
  let whole := s.toList.takeWhile (· != '.')
  let fraction := (s.toList.dropWhile (· != '.')).drop 1
  let (negative, digits) := splitSign whole
  if digits.isEmpty || !digits.all Char.isDigit || !fraction.all Char.isDigit then none
  else if fraction.length ≤ maxScale then
    some ⟨signed negative (Digits.value (digits ++ fraction)), .ofNat 32 fraction.length⟩
  else none

end Decimal

end ImpTree
