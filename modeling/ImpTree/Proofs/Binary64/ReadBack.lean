import ImpTree.Binary64.Reader
import ImpTree.Binary64.Shortest
import ImpTree.Proofs.Json.ReadBack
import Mathlib

/-!
# Written binary numbers are read back

A reader that rounds twice does not give every binary number back.  Tenths do come back: they are
written with one digit after the point, and a whole number below ten and ten itself are exact, so
that only their quotient is rounded.

* `Binary64.ComesBack` — the numbers that are read back from their written form.
* `Binary64.numeral_tenth`, `Binary64.ofNumeral?_tenth` — how tenths are written and read.
* `Binary64.comesBack_tenth` — **tenths come back.**
-/

namespace ImpTree.Binary64

/-- The number is read back from its written form. -/
structure ComesBack (x : Binary64) : Prop where
  isProper : x.numeral.IsProper
  ofNumeral?_eq : ofNumeral? x.numeral = some x

/-- A tenth is written with one digit after the point. -/
theorem numeral_tenth : ∀ k < 10,
    (nearest false k 10).numeral = ⟨false, ['0'], [Nat.digitChar k], none⟩ := by
  decide +kernel

theorem isProper_tenth {k : Nat} (hk : k < 10) :
    Numeral.IsProper ⟨false, ['0'], [Nat.digitChar k], none⟩ where
  whole_ne_nil := by simp
  isDigit_whole := by simp
  head_whole := .inr rfl
  isDigit_fraction := by
    intro c hc
    rw [List.mem_singleton.1 hc]
    exact (by decide : ∀ k < 10, (Nat.digitChar k).isDigit = true) k hk
  exponent_ne_nil := by simp
  isDigit_exponent := by simp

/-- The digits of a tenth. -/
theorem significandOf_tenth : ∀ k < 10,
    significandOf ⟨false, ['0'], [Nat.digitChar k], none⟩ = (k, -1) := by
  decide

/-- A quotient by ten is rounded once. -/
theorem divPattern_tenth : ∀ k < 10,
    divPattern (nearestPattern k 1) (tenPattern 1) = nearestPattern k 10 := by
  decide +kernel

/-- One power of ten is divided by in one step. -/
theorem dividedByTens_of_le {pattern exponent : Nat} (h : exponent ≤ 308) :
    dividedByTens pattern exponent = divPattern pattern (tenPattern exponent) := by
  rw [dividedByTens, if_pos h]

/-- A tenth is read as the number nearest to it. -/
theorem ofNumeral?_tenth {k : Nat} (hk : k < 10) :
    ofNumeral? ⟨false, ['0'], [Nat.digitChar k], none⟩ = some (nearest false k 10) := by
  have hpattern : patternOfNumeral? ⟨false, ['0'], [Nat.digitChar k], none⟩ =
      some (nearestPattern k 10) := by
    rw [patternOfNumeral?, significandOf_tenth k hk]
    show scaled? k (-1) = _
    rw [scaled?, if_neg (by decide), ← divPattern_tenth k hk, ← dividedByTens_of_le (by decide)]
    rfl
  rw [ofNumeral?, hpattern]
  rfl

/-- **Tenths come back.** -/
theorem comesBack_tenth {k : Nat} (hk : k < 10) : (nearest false k 10).ComesBack := by
  constructor
  · rw [numeral_tenth k hk]
    exact isProper_tenth hk
  · rw [numeral_tenth k hk]
    exact ofNumeral?_tenth hk

end ImpTree.Binary64
