import ImpTree.Binary64
import ImpTree.Json

/-!
# The shortest decimal form of a binary number

A finite number of the binary format is written with the fewest digits that read back as the same
number, and with the nearest such digits.

* `Binary64.readsBack` — does a decimal number round to a given pattern?
* `Binary64.shortest` — the fewest digits, with the exponent of the last one.
* `Binary64.numeral` — positional or with an exponent, always with a digit after a positional point.
-/

namespace ImpTree.Binary64

/-! ## Digits -/

/-- The quotient of naturals that `digits * 10 ^ exponent` is. -/
def decimalRatio (digits : Nat) (exponent : Int) : Nat × Nat :=
  (digits * Nat.pow 10 exponent.toNat, Nat.pow 10 (-exponent).toNat)

/-- Does `digits * 10 ^ exponent` round to the pattern? -/
def readsBack (pattern digits : Nat) (exponent : Int) : Bool :=
  let (num, den) := decimalRatio digits exponent
  nearestPattern num den == pattern

/-- The multiple of `10 ^ exponent` at or below a pattern's number, as a natural factor, and whether
the number is nearer to the next one (an exact middle goes to the even one). -/
def neighbour (pattern : Nat) (exponent : Int) : Nat × Bool :=
  let num := units pattern * Nat.pow 10 (-exponent).toNat
  let den := Nat.pow 2 1074 * Nat.pow 10 exponent.toNat
  (num / den, roundedQuotient num den != num / den)

/-- The digits of a pattern's number on the grid of the multiples of `10 ^ exponent`: the nearer
neighbour that reads back, else the other one, if that reads back. -/
def onGrid? (pattern : Nat) (exponent : Int) : Option Nat :=
  let (below, isNearAbove) := neighbour pattern exponent
  let near := if isNearAbove then below + 1 else below
  let far := if isNearAbove then below else below + 1
  if readsBack pattern near exponent then some near
  else if readsBack pattern far exponent then some far
  else none

/-- The first grid, from coarse to fine, on which the pattern's number has digits. -/
def search (pattern : Nat) : Nat → Int → Nat × Int
  | 0, exponent => ((neighbour pattern exponent).1, exponent)
  | grids + 1, exponent =>
    match onGrid? pattern exponent with
    | some digits => (digits, exponent)
    | none => search pattern grids (exponent - 1)

/-- The decimal exponent of the leading digit of a positive pattern's number, or one more. -/
def leadingExponent (pattern : Nat) : Int :=
  let u := units pattern
  if Nat.pow 2 1074 ≤ u then (Digits.ofNat (u / Nat.pow 2 1074)).length
  else 1 - ((Digits.ofNat (Nat.pow 2 1074 / u)).length : Int)

/-- The fewest digits that read back as the pattern's number, with the exponent of the last one.
Eighteen grids from the leading digit on are always enough. -/
def shortest (pattern : Nat) : Nat × Int := search pattern 19 (leadingExponent pattern)

/-! ## Written form -/

/-- The written form of digits with an exponent.  From `1e-5` on and below `1e16` it is positional
with at least one digit on each side of the point; beyond, one digit stands before the point and an
exponent follows. -/
def layout (negative : Bool) (digits : List Char) (exponent : Int) : Numeral :=
  let point := digits.length + exponent
  if 0 ≤ exponent ∧ point ≤ 16 then
    ⟨negative, digits ++ List.replicate exponent.toNat '0', ['0'], none⟩
  else if 0 < point ∧ point ≤ 16 then
    ⟨negative, digits.take point.toNat, digits.drop point.toNat, none⟩
  else if -5 < point ∧ point ≤ 0 then
    ⟨negative, ['0'], List.replicate (-point).toNat '0' ++ digits, none⟩
  else
    ⟨negative, digits.take 1, digits.drop 1,
      some (decide (point - 1 < 0), Digits.ofNat (point - 1).natAbs)⟩

/-- The shortest written form of a finite number. -/
def numeral (x : Binary64) : Numeral :=
  if x.pattern = 0 then ⟨x.negative, ['0'], ['0'], none⟩
  else
    let (digits, exponent) := shortest x.pattern
    layout x.negative (Digits.ofNat digits) exponent

end ImpTree.Binary64
