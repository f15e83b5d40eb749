import ImpTree.Decimal
import Mathlib.Algebra.Order.Field.Rat
import Mathlib.Data.Rat.Cast.Order
import Mathlib.Order.Monotone.Basic
import Mathlib.Tactic.Linarith
import Mathlib.Tactic.NormNum
import Mathlib.Tactic.Ring

/-!
# Decimal arithmetic is exact

A decimal stands for a rational number.  Sums and differences stand for the exact results, and so do
products as long as the sum of the scales is a number of 32 bits; comparing decimals compares the
numbers.  A decimal is given by its number and its scale, so a law of rational arithmetic holds of
decimals digit for digit as soon as both sides have one scale.

* `Decimal.size` — the number that a decimal stands for.
* `Decimal.eq_of_size_eq` — decimals of one scale that stand for one number are the same.
* `Decimal.scale_mul` — the scale of a product, which wraps around.
* `Decimal.size_add`, `Decimal.size_sub`, `Decimal.size_mul` — the operations.
* `Decimal.order_eq_cmp` — the order.
* `Decimal.arithmetic_exact` — **arithmetic and comparison are exact.**
-/

namespace ImpTree

namespace Decimal

/-! ## Scales -/

/-- A scale is a number of 32 bits. -/
theorem scale_le_maxScale (d : Decimal) : d.scale ≤ maxScale := by
  have hbits : d.places.toNat < 4294967296 := d.places.isLt
  rw [scale, maxScale]
  omega

/-- The larger scale. -/
@[simp]
theorem toNat_commonPlaces (a b : Decimal) :
    (a.commonPlaces b).toNat = max a.scale b.scale := by
  unfold commonPlaces
  split
  · rename_i h
    exact (max_eq_right h).symm
  · rename_i h
    exact (max_eq_left (not_le.1 h).le).symm

/-- Decimals with the same unscaled integer and the same scale are the same. -/
theorem eq_of_scale_eq {a b : Decimal} (hunscaled : a.unscaled = b.unscaled)
    (hscale : a.scale = b.scale) : a = b := by
  cases a
  cases b
  cases hunscaled
  cases BitVec.eq_of_toNat_eq hscale
  rfl

@[simp]
theorem scale_add (a b : Decimal) : (a.add b).scale = max a.scale b.scale :=
  toNat_commonPlaces a b

@[simp]
theorem scale_sub (a b : Decimal) : (a.sub b).scale = max a.scale b.scale :=
  toNat_commonPlaces a b

/-- The scale of a product is a sum of numbers of 32 bits. -/
theorem scale_mul (a b : Decimal) : (a.mul b).scale = (a.scale + b.scale) % (maxScale + 1) :=
  BitVec.toNat_add a.places b.places

/-- It is the sum of the scales unless that is too large. -/
theorem scale_mul_of_le {a b : Decimal} (h : a.scale + b.scale ≤ maxScale) :
    (a.mul b).scale = a.scale + b.scale := by
  rw [scale_mul, Nat.mod_eq_of_lt (Nat.lt_succ_of_le h)]

/-! ## The number that a decimal stands for -/

/-- The number that a decimal stands for. -/
def size (d : Decimal) : ℚ := d.unscaled / 10 ^ d.scale

theorem ten_pow_pos (n : Nat) : (0 : ℚ) < 10 ^ n := pow_pos (by norm_num) n

theorem ten_pow_ne_zero (n : Nat) : (10 : ℚ) ^ n ≠ 0 := (ten_pow_pos n).ne'

/-- The number, with its point moved to the end. -/
theorem size_mul_ten_pow (d : Decimal) : d.size * 10 ^ d.scale = d.unscaled :=
  div_mul_cancel₀ _ (ten_pow_ne_zero _)

/-- The unscaled integer at a larger scale is the number with its point moved that far. -/
theorem cast_unscaledAt (d : Decimal) {scale : Nat} (h : d.scale ≤ scale) :
    (d.unscaledAt scale : ℚ) = d.size * 10 ^ scale := by
  obtain ⟨k, rfl⟩ := Nat.exists_eq_add_of_le h
  have hat : d.unscaledAt (d.scale + k) = d.unscaled * 10 ^ k := by
    rw [unscaledAt, Nat.add_sub_cancel_left]
    rfl
  rw [hat, Int.cast_mul, Int.cast_pow, Int.cast_ofNat, pow_add, ← mul_assoc, size_mul_ten_pow]

/-- Decimals of one scale that stand for one number are the same, digit for digit. -/
theorem eq_of_size_eq {a b : Decimal} (hscale : a.scale = b.scale) (hsize : a.size = b.size) :
    a = b := by
  have hunscaled : (a.unscaled : ℚ) = b.unscaled := by
    rw [← a.size_mul_ten_pow, ← b.size_mul_ten_pow, hsize, hscale]
  exact eq_of_scale_eq (Int.cast_injective hunscaled) hscale

/-! ## Operations -/

/-- **Sums are exact.** -/
@[simp]
theorem size_add (a b : Decimal) : (a.add b).size = a.size + b.size := by
  rw [size, scale_add, add]
  dsimp only
  rw [toNat_commonPlaces, Int.cast_add, a.cast_unscaledAt (le_max_left _ _),
    b.cast_unscaledAt (le_max_right _ _), ← add_mul, mul_div_cancel_right₀ _ (ten_pow_ne_zero _)]

/-- **Differences are exact.** -/
@[simp]
theorem size_sub (a b : Decimal) : (a.sub b).size = a.size - b.size := by
  rw [size, scale_sub, sub]
  dsimp only
  rw [toNat_commonPlaces, Int.cast_sub, a.cast_unscaledAt (le_max_left _ _),
    b.cast_unscaledAt (le_max_right _ _), ← sub_mul, mul_div_cancel_right₀ _ (ten_pow_ne_zero _)]

/-- **Products are exact** unless the sum of the scales is too large. -/
theorem size_mul {a b : Decimal} (h : a.scale + b.scale ≤ maxScale) :
    (a.mul b).size = a.size * b.size := by
  rw [size, scale_mul_of_le h, mul, Int.cast_mul, pow_add, ← div_mul_div_comm]
  rfl

/-! ## Order -/

/-- **Decimals compare like the numbers that they stand for.** -/
theorem order_eq_cmp (a b : Decimal) : a.order b = cmp a.size b.size := by
  have hpos := ten_pow_pos (max a.scale b.scale)
  calc a.order b
      = cmp (a.unscaledAt (max a.scale b.scale)) (b.unscaledAt (max a.scale b.scale)) :=
        (cmp_eq_compare _ _).symm
    _ = cmp (a.size * 10 ^ max a.scale b.scale) (b.size * 10 ^ max a.scale b.scale) := by
        rw [← a.cast_unscaledAt (le_max_left _ _), ← b.cast_unscaledAt (le_max_right _ _)]
        exact (Int.cast_strictMono.cmp_map_eq _ _).symm
    _ = cmp a.size b.size := cmp_mul_pos_right hpos _ _

/-- Decimals are equal if they are equal in size. -/
theorem same_iff (a b : Decimal) : a.same b = true ↔ a.size = b.size := by
  rw [same, order_eq_cmp, beq_iff_eq, cmp_eq_eq_iff]

/-! ## Laws -/

protected theorem add_comm (a b : Decimal) : a.add b = b.add a :=
  eq_of_size_eq (by simp only [scale_add, max_comm]) (by simp only [size_add, add_comm])

protected theorem add_assoc (a b c : Decimal) : (a.add b).add c = a.add (b.add c) :=
  eq_of_size_eq (by simp only [scale_add, max_assoc]) (by simp only [size_add, add_assoc])

/-- Sums that wrap around do not depend on the order. -/
protected theorem mul_comm (a b : Decimal) : a.mul b = b.mul a :=
  congrArg₂ mk (mul_comm _ _) (BitVec.add_comm _ _)

protected theorem mul_assoc (a b c : Decimal) : (a.mul b).mul c = a.mul (b.mul c) :=
  congrArg₂ mk (mul_assoc _ _ _) (BitVec.add_assoc _ _ _)

/-- The scales agree, too: a larger summand makes a larger sum. -/
protected theorem mul_add {a b c : Decimal} (h : a.scale + max b.scale c.scale ≤ maxScale) :
    a.mul (b.add c) = (a.mul b).add (a.mul c) := by
  have hsum : a.scale + (b.add c).scale ≤ maxScale := by rwa [scale_add]
  have hb : a.scale + b.scale ≤ maxScale := (Nat.add_le_add_left (le_max_left _ _) _).trans h
  have hc : a.scale + c.scale ≤ maxScale := (Nat.add_le_add_left (le_max_right _ _) _).trans h
  refine eq_of_size_eq ?_ ?_
  · rw [scale_mul_of_le hsum, scale_add, scale_add, scale_mul_of_le hb, scale_mul_of_le hc,
      Nat.add_max_add_left]
  · rw [size_mul hsum, size_add, size_add, size_mul hb, size_mul hc, mul_add]

/-- **Arithmetic and comparison are exact.**  Sums and differences stand for the exact sum and
difference of the numbers that the operands stand for, at the larger of the scales; products stand
for the exact product, at the sum of the scales, if that is a number of 32 bits; decimals compare,
and are equal, as these numbers do.  So addition and multiplication are commutative and associative,
and multiplication distributes over addition if the sums of the scales are numbers of 32 bits, with
equal unscaled integers and equal scales on both sides; and operands that are equal in size can
replace each other. -/
theorem arithmetic_exact :
    (∀ a b : Decimal,
      ((a.add b).size = a.size + b.size ∧ (a.add b).scale = max a.scale b.scale) ∧
      ((a.sub b).size = a.size - b.size ∧ (a.sub b).scale = max a.scale b.scale) ∧
      (a.scale + b.scale ≤ maxScale →
        (a.mul b).size = a.size * b.size ∧ (a.mul b).scale = a.scale + b.scale) ∧
      a.order b = cmp a.size b.size ∧ (a.same b = true ↔ a.size = b.size)) ∧
    (∀ a b c : Decimal,
      a.add b = b.add a ∧ (a.add b).add c = a.add (b.add c) ∧
      a.mul b = b.mul a ∧ (a.mul b).mul c = a.mul (b.mul c) ∧
      (a.scale + max b.scale c.scale ≤ maxScale →
        a.mul (b.add c) = (a.mul b).add (a.mul c) ∧
        (b.add c).mul a = (b.mul a).add (c.mul a))) ∧
    ∀ a a' b b' : Decimal, a.same a' = true → b.same b' = true →
      (a.add b).same (a'.add b') = true ∧ (a.sub b).same (a'.sub b') = true ∧
      (a.scale + b.scale ≤ maxScale → a'.scale + b'.scale ≤ maxScale →
        (a.mul b).same (a'.mul b') = true) ∧
      a.order b = a'.order b' := by
  refine ⟨fun a b => ?exact, fun a b c => ?laws, fun a a' b b' ha hb => ?replace⟩
  case exact =>
    exact ⟨⟨size_add a b, scale_add a b⟩, ⟨size_sub a b, scale_sub a b⟩,
      fun h => ⟨size_mul h, scale_mul_of_le h⟩, order_eq_cmp a b, same_iff a b⟩
  case laws =>
    refine ⟨a.add_comm b, a.add_assoc b c, a.mul_comm b, a.mul_assoc b c, fun h => ?_⟩
    have hleft : a.mul (b.add c) = (a.mul b).add (a.mul c) := Decimal.mul_add h
    refine ⟨hleft, ?_⟩
    rw [Decimal.mul_comm, hleft, Decimal.mul_comm a b, Decimal.mul_comm a c]
  case replace =>
    rw [same_iff] at ha hb
    simp only [same_iff, size_add, size_sub]
    refine ⟨by rw [ha, hb], by rw [ha, hb], fun h h' => ?_, ?_⟩
    · rw [size_mul h, size_mul h', ha, hb]
    · rw [order_eq_cmp, order_eq_cmp, ha, hb]

/-- One and minus two and a half, written at several scales. -/
theorem arithmetic_exact_rescaled :
    (⟨10, 1⟩ : Decimal).same ⟨100, 2⟩ = true ∧ (⟨-25, 1⟩ : Decimal).same ⟨-2500, 3⟩ = true ∧
      ((⟨10, 1⟩ : Decimal).add ⟨-25, 1⟩).same ((⟨100, 2⟩ : Decimal).add ⟨-2500, 3⟩) = true ∧
      ((⟨10, 1⟩ : Decimal).mul ⟨-25, 1⟩).same ((⟨100, 2⟩ : Decimal).mul ⟨-2500, 3⟩) = true ∧
      (⟨100, 2⟩ : Decimal).add ⟨-2500, 3⟩ = ⟨-1500, 3⟩ := by
  have hone : (⟨10, 1⟩ : Decimal).same ⟨100, 2⟩ = true := by decide
  have htwo : (⟨-25, 1⟩ : Decimal).same ⟨-2500, 3⟩ = true := by decide
  obtain ⟨hadd, -, hmul, -⟩ := arithmetic_exact.2.2 _ _ _ _ hone htwo
  exact ⟨hone, htwo, hadd, hmul (by decide) (by decide), by decide⟩

/-- A tenth times the smallest power of ten that a scale can say: the scale wraps around, and the
product is one in place of a number that is almost nothing. -/
example : (⟨1, 1⟩ : Decimal).mul ⟨1, 4294967295⟩ = ⟨1, 0⟩ := by decide

end Decimal

end ImpTree
