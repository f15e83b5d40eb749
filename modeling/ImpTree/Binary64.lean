import ImpTree.Rounding

/-!
# Binary floating point, 64 bits wide

A number of the format is a sign and a magnitude pattern: the 63 bits below the sign, read as one
natural number.  Patterns are ordered as the magnitudes they stand for, so rounding, comparing and
printing need no machine floats.

* `Binary64.nearestPattern` — the pattern nearest to a quotient of naturals, ties to the even one.
* `Binary64.significand`, `Binary64.exponent` — a finite pattern stands for
  `significand * 2 ^ exponent / 2 ^ 1074`.
* `Binary64.key` — an integer in the order of the numbers, the two zeros alike.
-/

namespace ImpTree

/-- A number of the 64-bit binary format (infinities included, other special patterns never
arise). -/
structure Binary64 where
  /-- The sign bit. -/
  negative : Bool
  /-- The pattern below the sign bit. -/
  pattern : Nat
  deriving DecidableEq, Inhabited

namespace Binary64

/-- The pattern of infinity: all exponent bits set, no fraction bit. -/
def infinityPattern : Nat := 2047 * Nat.pow 2 52

/-- The pattern nearest to `num / den`, a tie going to the even one; from half-way above the
greatest finite number on, infinity.  The quotient is scaled by `2 ^ 1074`, so that the least
positive pattern stands for 1; then `shift` low bits are rounded away, as many as leave 53 bits. -/
def nearestPattern (num den : Nat) : Nat :=
  let scaled := num * Nat.pow 2 1074
  let shift := Nat.log2 (scaled / den) - 52
  min (shift * Nat.pow 2 52 + roundedQuotient scaled (den * Nat.pow 2 shift)) infinityPattern

/-- The number of the given sign nearest to `num / den`. -/
def nearest (negative : Bool) (num den : Nat) : Binary64 := ⟨negative, nearestPattern num den⟩

/-- The whole-number part of a finite pattern. -/
def significand (pattern : Nat) : Nat :=
  if pattern < Nat.pow 2 52 then pattern else Nat.pow 2 52 + pattern % Nat.pow 2 52

/-- The exponent of a finite pattern, counted from the least one. -/
def exponent (pattern : Nat) : Nat := pattern / Nat.pow 2 52 - 1

/-- The magnitude of a finite pattern, in units of `1 / 2 ^ 1074`. -/
def units (pattern : Nat) : Nat := significand pattern * Nat.pow 2 (exponent pattern)

/-- Is the number infinite? -/
def isInfinite (x : Binary64) : Bool := infinityPattern ≤ x.pattern

/-- The sign bit followed by the pattern, as one 64-bit word. -/
def bits (x : Binary64) : Nat := (if x.negative then Nat.pow 2 63 else 0) + x.pattern

/-- An integer that is ordered as the numbers are; both zeros have key 0. -/
def key (x : Binary64) : Int := if x.negative then -(x.pattern : Int) else x.pattern

end Binary64

end ImpTree
