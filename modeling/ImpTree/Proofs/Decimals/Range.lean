import ImpTree.Analysis.Expr
import ImpTree.Proofs.Binary64.Nearest

/-!
# The range of decimal literals

A decimal literal is accepted if the nearest binary number is finite.  Rounding is correct, so this
asks only for the size of the number: it must be less than half-way from the greatest finite binary
number to `2 ^ 1024`.  The scale at which the number is written does not matter.

* `Decimal.pattern_nearest` — the binary number nearest to a decimal.
* `Decimal.key_mono`, `Decimal.toBinary64_congr`, `Decimal.toBinary64_neg` — order, equal sizes,
  signs.
* `Decimal.isInfinite_toBinary64_iff`, `Decimal.verdict_literal_iff` — when a literal is out of
  range.
* `Decimal.literal_range_exact` — **the range of decimal literals**, exactly.
-/

namespace ImpTree

namespace Decimal

variable {a b d : Decimal}

/-! ## The nearest binary number -/

theorem abs_size (d : Decimal) : |d.size| = d.unscaled.natAbs / (Nat.pow 10 d.scale : ℕ) := by
  rw [size, abs_div, abs_of_pos (ten_pow_pos _), Nat.cast_natAbs, Int.cast_abs, Nat.pow_eq,
    Nat.cast_pow, Nat.cast_ofNat]

/-- **The nearest binary number**, among the finite ones and infinity. -/
theorem pattern_nearest (d : Decimal) :
    Binary64.NearestAmong (Set.Iic Binary64.infinityPattern) d.toBinary64.pattern |d.size| := by
  rw [abs_size]
  exact Binary64.nearestPattern_nearest _ (Nat.pow_pos (by norm_num))

/-- The sign is that of the number. -/
theorem negative_toBinary64 (d : Decimal) : d.toBinary64.negative = decide (d.size < 0) := by
  have hsign : d.size < 0 ↔ d.unscaled < 0 := by
    rw [size, div_lt_iff₀ (ten_pow_pos _), zero_mul, Int.cast_lt_zero]
  exact decide_eq_decide.2 hsign.symm

/-- Decimals of the same size have the same nearest binary number. -/
theorem toBinary64_congr (h : a.size = b.size) : a.toBinary64 = b.toBinary64 := by
  have hpattern : a.toBinary64.pattern = b.toBinary64.pattern :=
    a.pattern_nearest.unique (h ▸ b.pattern_nearest)
  have hnegative : a.toBinary64.negative = b.toBinary64.negative := by
    rw [negative_toBinary64, negative_toBinary64, h]
  exact congrArg₂ Binary64.mk hnegative hpattern

/-- The larger in magnitude, the greater the pattern. -/
theorem pattern_mono (h : |a.size| ≤ |b.size|) :
    a.toBinary64.pattern ≤ b.toBinary64.pattern :=
  a.pattern_nearest.mono b.pattern_nearest h

/-- **The nearest binary numbers are in the same order** as the decimals. -/
theorem key_mono (h : a.size ≤ b.size) : a.toBinary64.key ≤ b.toBinary64.key := by
  have hkey : ∀ d : Decimal, d.toBinary64.key =
      if d.size < 0 then -(d.toBinary64.pattern : ℤ) else d.toBinary64.pattern := by
    intro d
    rw [Binary64.key, negative_toBinary64]
    simp only [decide_eq_true_eq]
  rw [hkey, hkey]
  rcases lt_or_ge b.size 0 with hb | hb
  · have ha : a.size < 0 := h.trans_lt hb
    have hpattern : b.toBinary64.pattern ≤ a.toBinary64.pattern :=
      pattern_mono (abs_le_abs_of_nonpos hb.le h)
    rw [if_pos ha, if_pos hb]
    omega
  · rw [if_neg (not_lt.2 hb)]
    rcases lt_or_ge a.size 0 with ha | ha
    · rw [if_pos ha]
      omega
    · have hpattern : a.toBinary64.pattern ≤ b.toBinary64.pattern :=
        pattern_mono (abs_le_abs_of_nonneg ha h)
      rw [if_neg (not_lt.2 ha)]
      omega

theorem size_toBinary64_mono (h : a.size ≤ b.size) : a.toBinary64.size ≤ b.toBinary64.size :=
  Binary64.key_le_key_iff.1 (key_mono h)

/-- **The other sign changes the sign bit only**, unless the number is zero. -/
theorem toBinary64_neg (h : d.size ≠ 0) :
    d.neg.toBinary64 = { d.toBinary64 with negative := !d.toBinary64.negative } := by
  have hpattern : d.neg.toBinary64.pattern = d.toBinary64.pattern := by
    refine d.neg.pattern_nearest.unique ?_
    rw [size_neg, abs_neg]
    exact d.pattern_nearest
  have hnegative : d.neg.toBinary64.negative = !d.toBinary64.negative := by
    rw [negative_toBinary64, negative_toBinary64, size_neg, ← decide_not, decide_eq_decide,
      neg_lt_zero, not_lt]
    exact ⟨le_of_lt, fun hle => lt_of_le_of_ne hle h.symm⟩
  exact congrArg₂ Binary64.mk hnegative hpattern

/-! ## Literals -/

/-- **When the nearest binary number is infinite.** -/
theorem isInfinite_toBinary64_iff :
    d.toBinary64.isInfinite = true ↔ 2 ^ 1024 - 2 ^ 970 ≤ |d.size| := by
  rw [← d.pattern_nearest.eq_infinityPattern_iff, Binary64.isInfinite, decide_eq_true_iff]
  exact ⟨fun h => d.pattern_nearest.mem.antisymm h, fun h => h.ge⟩

variable {scope : Scope} {span : Span} {slot : Slot Ty}

/-- A literal that is out of range is refused. -/
theorem check_literal_of_ge (h : 2 ^ 1024 - 2 ^ 970 ≤ |d.size|) :
    (Expr.literal (.decimal d) span slot).check scope =
      .fail (.literal (.decimal d) span slot) (.literalRange d.text span) := by
  rw [Expr.check, Literal.ty, if_pos (isInfinite_toBinary64_iff.2 h)]
  rfl

/-- A literal within the range is accepted as a decimal. -/
theorem check_literal_of_lt (h : |d.size| < 2 ^ 1024 - 2 ^ 970) :
    (Expr.literal (.decimal d) span slot).check scope =
      .pass (.literal (.decimal d) span (slot.fill .decimal)) .decimal := by
  have hfinite : ¬d.toBinary64.isInfinite = true :=
    fun hinfinite => not_le.2 h (isInfinite_toBinary64_iff.1 hinfinite)
  rw [Expr.check, Literal.ty, if_neg hfinite]
  rfl

/-- Which literals are refused, and which are accepted. -/
theorem verdict_literal_iff (d : Decimal) (scope : Scope) (span : Span) (slot : Slot Ty) :
    (((Expr.literal (.decimal d) span slot).check scope).verdict =
      .error (.literalRange d.text span) ↔ 2 ^ 1024 - 2 ^ 970 ≤ |d.size|) ∧
    (((Expr.literal (.decimal d) span slot).check scope).verdict = .ok .decimal ↔
      |d.size| < 2 ^ 1024 - 2 ^ 970) := by
  rcases le_or_gt (2 ^ 1024 - 2 ^ 970) |d.size| with hge | hlt
  · rw [check_literal_of_ge hge]
    exact ⟨iff_of_true rfl hge, iff_of_false (fun h => nomatch h) (not_lt.2 hge)⟩
  · rw [check_literal_of_lt hlt]
    exact ⟨iff_of_false (fun h => nomatch h) (not_le.2 hlt), iff_of_true rfl hlt⟩

/-- **The range of decimal literals**, exactly.  A literal is refused if its magnitude is at least
half-way from the greatest finite binary number to `2 ^ 1024`, and accepted otherwise; so numbers of
the same size get the same verdict at every scale, and a number that is not larger than an accepted
one is accepted.  The binary number of a decimal is the nearest one with its sign; so it is in the
order of the decimals, the same for the same size, and differs in the sign bit only for the number
with the other sign. -/
theorem literal_range_exact :
    (∀ (d : Decimal) (scope : Scope) (span : Span) (slot : Slot Ty),
      (((Expr.literal (.decimal d) span slot).check scope).verdict =
        .error (.literalRange d.text span) ↔ 2 ^ 1024 - 2 ^ 970 ≤ |d.size|) ∧
      (((Expr.literal (.decimal d) span slot).check scope).verdict = .ok .decimal ↔
        |d.size| < 2 ^ 1024 - 2 ^ 970)) ∧
    (∀ (a b : Decimal) (scope : Scope) (span : Span) (slot : Slot Ty),
      (a.same b = true →
        (((Expr.literal (.decimal a) span slot).check scope).verdict = .ok .decimal ↔
          ((Expr.literal (.decimal b) span slot).check scope).verdict = .ok .decimal)) ∧
      (|a.size| ≤ |b.size| →
        ((Expr.literal (.decimal b) span slot).check scope).verdict = .ok .decimal →
          ((Expr.literal (.decimal a) span slot).check scope).verdict = .ok .decimal)) ∧
    (∀ (d : Decimal) (p : ℕ), d.toBinary64 = ⟨decide (d.size < 0), p⟩ ↔
      Binary64.NearestAmong (Set.Iic Binary64.infinityPattern) p |d.size|) ∧
    (∀ a b : Decimal, a.size ≤ b.size → a.toBinary64.size ≤ b.toBinary64.size) ∧
    (∀ a b : Decimal, a.same b = true → a.toBinary64 = b.toBinary64) ∧
    ∀ d : Decimal, d.size ≠ 0 →
      d.neg.toBinary64 = { d.toBinary64 with negative := !d.toBinary64.negative } := by
  refine ⟨verdict_literal_iff, fun a b scope span slot => ⟨fun hsame => ?_, fun hsize hb => ?_⟩,
    fun d p => ⟨fun h => ?_, fun h => ?_⟩, fun _ _ => size_toBinary64_mono,
    fun a b hsame => toBinary64_congr ((same_iff a b).1 hsame), fun _ => toBinary64_neg⟩
  · rw [(verdict_literal_iff a scope span slot).2, (verdict_literal_iff b scope span slot).2,
      (same_iff a b).1 hsame]
  · rw [(verdict_literal_iff _ scope span slot).2] at hb ⊢
    exact hsize.trans_lt hb
  · have hpattern : d.toBinary64.pattern = p := congrArg Binary64.pattern h
    exact hpattern ▸ d.pattern_nearest
  · exact congrArg₂ Binary64.mk (negative_toBinary64 d) (d.pattern_nearest.unique h)

/-- The number half-way from the greatest finite binary number to `2 ^ 1024`. -/
def halfway : Decimal := ⟨2 ^ 1024 - 2 ^ 970, 0⟩

/-- Half-way, and one tenth less. -/
def belowHalfway : Decimal := ⟨(2 ^ 1024 - 2 ^ 970) * 10 - 1, 1⟩

theorem one_le_halfway : (1 : ℚ) ≤ 2 ^ 1024 - 2 ^ 970 := by
  have hpower : (2 : ℚ) ^ 1024 = 2 ^ 54 * 2 ^ 970 := by rw [← pow_add]
  have hone : (1 : ℚ) ≤ 2 ^ 970 := one_le_pow₀ (by norm_num)
  rw [hpower]
  generalize (2 : ℚ) ^ 970 = step at hone
  linarith

theorem size_halfway : halfway.size = 2 ^ 1024 - 2 ^ 970 := by
  have hscale : halfway.scale = 0 := rfl
  rw [size, hscale, halfway, pow_zero, div_one, Int.cast_sub, Int.cast_pow, Int.cast_pow,
    Int.cast_ofNat]

theorem size_belowHalfway : belowHalfway.size = 2 ^ 1024 - 2 ^ 970 - 1 / 10 := by
  have hscale : belowHalfway.scale = 1 := rfl
  rw [size, hscale, belowHalfway, pow_one, Int.cast_sub, Int.cast_mul, Int.cast_sub, Int.cast_pow,
    Int.cast_pow, Int.cast_ofNat, Int.cast_ofNat, Int.cast_one, sub_div,
    mul_div_cancel_right₀ _ (by norm_num)]

/-- The number half-way is refused and one tenth less is accepted; 2.50 and 2.5 have the same binary
number, and so has -2.5 but for its sign. -/
theorem literal_range_exact_halfway :
    ((Expr.literal (.decimal halfway) .nowhere none).check .initial).verdict =
        .error (.literalRange halfway.text .nowhere) ∧
      ((Expr.literal (.decimal belowHalfway) .nowhere none).check .initial).verdict =
        .ok .decimal ∧
      belowHalfway.toBinary64.size ≤ halfway.toBinary64.size ∧
      toBinary64 ⟨250, 2⟩ = toBinary64 ⟨25, 1⟩ ∧
      toBinary64 ⟨-25, 1⟩ = { toBinary64 ⟨25, 1⟩ with negative := true } := by
  obtain ⟨hverdict, -, -, hmono, hsame, hneg⟩ := literal_range_exact
  have hone := one_le_halfway
  have hhalfway := size_halfway
  have hbelow := size_belowHalfway
  have hrefused := (hverdict halfway .initial .nowhere none).1
  have haccepted := (hverdict belowHalfway .initial .nowhere none).2
  generalize (2 : ℚ) ^ 1024 - 2 ^ 970 = bound at hone hhalfway hbelow hrefused haccepted
  have hsize : (⟨25, 1⟩ : Decimal).size ≠ 0 := by
    rw [Ne, size_eq_zero_iff]
    decide
  refine ⟨hrefused.2 ?_, haccepted.2 ?_, hmono _ _ ?_, hsame _ _ (by decide), hneg _ hsize⟩
  · rw [hhalfway]
    exact le_abs_self bound
  · rw [hbelow, abs_of_pos (by linarith)]
    linarith
  · rw [hbelow, hhalfway]
    linarith

end Decimal

end ImpTree
