import ImpTree.Proofs.Decimals.Arithmetic
import Mathlib.Algebra.Order.Field.Basic
import Mathlib.Algebra.Order.Ring.Abs
import Mathlib.Algebra.Ring.Int.Parity

/-!
# Decimal division is correctly rounded

The quotient of two decimals stands at the scale of the dividend.  It is the number of that scale
which is nearest to the exact quotient, and of two equally near ones the one whose unscaled integer
is even.  There is only one such number, so the quotient depends on nothing but the exact quotient
and the scale.

* `NearestEven` — an integer is nearest to a number, and even if it is half-way.
* `roundedQuotient_nearest` — what rounding a quotient of natural numbers gives.
* `correctedQuotient` — rounding towards zero, corrected by what is left over.
* `Decimal.Rounds` — a decimal is nearest to a number at a scale, and even if it is half-way.
* `Decimal.div?_eq_corrected` — the two ways of rounding give the same quotients.
* `Decimal.division_rounded` — **division is correctly rounded.**
-/

namespace ImpTree

/-! ## The nearest integer -/

/-- The integer is at most one half away from the number, and it is even if it is one half away. -/
structure NearestEven (q : ℤ) (x : ℚ) : Prop where
  /-- There is no nearer integer. -/
  near : |q - x| ≤ 1 / 2
  /-- Half-way between two integers, it is the even one. -/
  even : |q - x| = 1 / 2 → Even q

namespace NearestEven

variable {q r : ℤ} {x : ℚ}

/-- The nearest integer on the other side of zero. -/
theorem neg (h : NearestEven q x) : NearestEven (-q) (-x) := by
  have hdist : |((-q : ℤ) : ℚ) - -x| = |q - x| := by
    rw [Int.cast_neg, ← neg_sub', abs_neg]
  exact ⟨hdist ▸ h.near, fun hhalf => (h.even (hdist ▸ hhalf)).neg⟩

/-- Two nearest integers are equal: otherwise they would be neighbours, half-way from the number,
and both of them even. -/
theorem eq_of_le (hq : NearestEven q x) (hr : NearestEven r x) (hle : q ≤ r) : q = r := by
  by_contra hne
  have hnext : r = q + 1 := by
    have hq' := abs_le.1 hq.near
    have hr' := abs_le.1 hr.near
    have hcast : (r : ℚ) ≤ q + 1 := by linarith
    have hclose : r ≤ q + 1 := by exact_mod_cast hcast
    omega
  have hcast : (r : ℚ) = q + 1 := by exact_mod_cast hnext
  have hq' := abs_le.1 hq.near
  have hr' := abs_le.1 hr.near
  have hqhalf : |(q : ℚ) - x| = 1 / 2 := by rw [abs_of_nonpos] <;> linarith
  have hrhalf : |(r : ℚ) - x| = 1 / 2 := by rw [abs_of_nonneg] <;> linarith
  have hodd : Odd r := hnext ▸ (hq.even hqhalf).add_one
  exact Int.not_even_iff_odd.2 hodd (hr.even hrhalf)

/-- There is one nearest integer. -/
theorem unique (hq : NearestEven q x) (hr : NearestEven r x) : q = r := by
  rcases le_total q r with hle | hle
  · exact hq.eq_of_le hr hle
  · exact (hr.eq_of_le hq hle).symm

/-- No integer is nearer. -/
theorem le (hq : NearestEven q x) (r : ℤ) : |q - x| ≤ |r - x| := by
  by_cases hr : |(r : ℚ) - x| < 1 / 2
  · rw [hq.unique ⟨hr.le, fun hhalf => absurd hhalf hr.ne⟩]
  · exact hq.near.trans (not_lt.1 hr)

/-- Every other integer is farther away, or as far, and then the nearest one is even. -/
theorem lt_or_even (hq : NearestEven q x) (hne : r ≠ q) :
    |q - x| < |r - x| ∨ |q - x| = |r - x| ∧ Even q := by
  rcases (hq.le r).lt_or_eq with hlt | hsame
  · exact .inl hlt
  · have hapart : (1 : ℚ) ≤ |(r : ℚ) - q| := by
      exact_mod_cast Int.one_le_abs (sub_ne_zero.2 hne)
    have hsum : |(r : ℚ) - q| ≤ |r - x| + |q - x| := by
      simpa only [abs_sub_comm x q] using abs_sub_le (r : ℚ) x q
    exact .inr ⟨hsame, hq.even (le_antisymm hq.near (by linarith))⟩

/-- The nearest natural number is on the same side of another one as the number is. -/
theorem le_natCast {n m : ℕ} (h : NearestEven n x) (hm : x ≤ m) : n ≤ m := by
  have hdist := abs_le.1 h.near
  rw [Int.cast_natCast] at hdist
  have hcast : (n : ℚ) < m + 1 := by linarith
  exact Nat.lt_succ_iff.1 (by exact_mod_cast hcast)

theorem natCast_le {n m : ℕ} (h : NearestEven n x) (hm : (m : ℚ) ≤ x) : m ≤ n := by
  have hdist := abs_le.1 h.near
  rw [Int.cast_natCast] at hdist
  have hcast : (m : ℚ) < n + 1 := by linarith
  exact Nat.lt_succ_iff.1 (by exact_mod_cast hcast)

/-- An integer is nearest to a quotient if what is left over is at most half of the divisor. -/
theorem of_left {num den left : ℤ} (hden : den ≠ 0) (hsplit : num = q * den + left)
    (hnear : 2 * left.natAbs ≤ den.natAbs) (heven : 2 * left.natAbs = den.natAbs → Even q) :
    NearestEven q (num / den) := by
  have hcast : (den : ℚ) ≠ 0 := by exact_mod_cast hden
  have hpos : (0 : ℚ) < den.natAbs := by exact_mod_cast Int.natAbs_pos.2 hden
  have hquotient : (num : ℚ) / den = q + left / den := by
    rw [hsplit, Int.cast_add, Int.cast_mul, add_div, mul_div_cancel_right₀ _ hcast]
  have hdist : |(q : ℚ) - num / den| = left.natAbs / den.natAbs := by
    rw [hquotient, sub_add_cancel_left, abs_neg, abs_div, Nat.cast_natAbs, Nat.cast_natAbs,
      Int.cast_abs, Int.cast_abs]
  constructor
  · rw [hdist, div_le_div_iff₀ hpos two_pos, one_mul, mul_comm]
    exact_mod_cast hnear
  · rw [hdist, div_eq_div_iff hpos.ne' two_ne_zero, one_mul, mul_comm]
    exact fun hhalf => heven (by exact_mod_cast hhalf)

end NearestEven

/-! ## Rounding quotients -/

/-- **A rounded quotient of natural numbers** is the nearest integer. -/
theorem roundedQuotient_nearest (num : Nat) {den : Nat} (hden : 0 < den) :
    NearestEven (roundedQuotient num den) ((num : ℤ) / (den : ℤ) : ℚ) := by
  have hne : (den : ℤ) ≠ 0 := by omega
  have hleft : num % den < den := Nat.mod_lt _ hden
  have hsplit : (num : ℤ) = (num / den : ℕ) * (den : ℤ) + (num % den : ℕ) := by
    exact_mod_cast (Nat.div_add_mod' num den).symm
  have hup : (num : ℤ) = ((num / den + 1 : ℕ) : ℤ) * den + ((num % den : ℕ) - den) := by
    rw [hsplit]
    push_cast
    ring
  rw [roundedQuotient]
  -- what is left over is less than half of the divisor, more than half of it, or half of it
  split_ifs with hless hmore
  · exact .of_left hne hsplit (by omega) (by omega)
  · exact .of_left hne hup (by omega) (by omega)
  · obtain heven | hodd := Nat.mod_two_eq_zero_or_one (num / den)
    · rw [heven]
      exact .of_left hne hsplit (by omega) fun _ => by rw [Int.even_iff]; omega
    · rw [hodd]
      exact .of_left hne hup (by omega) fun _ => by rw [Int.even_iff]; omega

/-- One step away from zero, on the side on which the quotient lies. -/
def stepAway (num den : ℤ) : ℤ := if decide (num < 0) != decide (den < 0) then -1 else 1

/-- A step takes one divisor off what is left over. -/
theorem stepAway_mul (num den : ℤ) :
    stepAway num den * den = if num < 0 then -(den.natAbs : ℤ) else den.natAbs := by
  rw [stepAway]
  by_cases hnum : num < 0 <;> by_cases hden : den < 0 <;>
    simp only [hnum, hden, decide_true, decide_false, bne_self_eq_false, Bool.true_bne,
      Bool.false_bne, Bool.not_false, if_true, Bool.false_eq_true, if_false] <;> omega

theorem odd_stepAway (num den : ℤ) : Odd (stepAway num den) := by
  rw [stepAway]
  split_ifs <;> decide

/-- The quotient rounded towards zero and then corrected by what is left over: one step away from
zero if it is more than half of the divisor, or half of it and the quotient odd. -/
def correctedQuotient (num den : ℤ) : ℤ :=
  let quotient := num.tdiv den
  let left := num.tmod den
  if left = 0 then quotient
  else
    match compare (2 * left.natAbs) den.natAbs with
    | .lt => quotient
    | .gt => quotient + stepAway num den
    | .eq => if quotient % 2 = 0 then quotient else quotient + stepAway num den

/-- What is left over is smaller than the divisor and has the sign of the numerator. -/
theorem natAbs_tmod_sub_step (num : ℤ) {den : ℤ} (hden : den ≠ 0) :
    (num.tmod den).natAbs < den.natAbs ∧
      (num.tmod den - stepAway num den * den).natAbs = den.natAbs - (num.tmod den).natAbs := by
  have hsmall : (num.tmod den).natAbs < den.natAbs := by
    rw [Int.natAbs_tmod]
    exact Nat.mod_lt _ (Int.natAbs_pos.2 hden)
  refine ⟨hsmall, ?_⟩
  rw [stepAway_mul]
  split_ifs with hnum
  · have hneg := Int.tmod_nonneg den (show 0 ≤ -num by omega)
    rw [Int.neg_tmod] at hneg
    omega
  · have hpos := Int.tmod_nonneg den (not_lt.1 hnum)
    omega

/-- **The corrected quotient** is the nearest integer, whatever the signs are. -/
theorem correctedQuotient_nearest (num : ℤ) {den : ℤ} (hden : den ≠ 0) :
    NearestEven (correctedQuotient num den) (num / den) := by
  obtain ⟨hsmall, hstep⟩ := natAbs_tmod_sub_step num hden
  have hsplit : num = num.tdiv den * den + num.tmod den := (Int.tdiv_mul_add_tmod num den).symm
  have hmoved : num = (num.tdiv den + stepAway num den) * den +
      (num.tmod den - stepAway num den * den) := hsplit.trans (by ring)
  rw [correctedQuotient]
  by_cases hexact : num.tmod den = 0
  · rw [if_pos hexact]
    exact .of_left hden hsplit (by omega) (by omega)
  · rw [if_neg hexact]
    split
    case h_1 hless =>
      rw [Nat.compare_eq_lt] at hless
      exact .of_left hden hsplit (by omega) (by omega)
    case h_2 hmore =>
      rw [Nat.compare_eq_gt] at hmore
      exact .of_left hden hmoved (by omega) (by omega)
    case h_3 hhalf =>
      rw [Nat.compare_eq_eq] at hhalf
      split_ifs with heven
      · exact .of_left hden hsplit (by omega) fun _ => Int.even_iff.2 heven
      · have hodd : Odd (num.tdiv den) := Int.not_even_iff_odd.1 (mt Int.even_iff.1 heven)
        exact .of_left hden hmoved (by omega) fun _ => hodd.add_odd (odd_stepAway num den)

/-- The nearest integer to a quotient of integers, from that of their magnitudes. -/
theorem NearestEven.signed {num den : ℤ} {magnitude : Nat}
    (h : NearestEven magnitude ((num.natAbs : ℤ) / (den.natAbs : ℤ) : ℚ)) :
    NearestEven (signed (decide (num < 0) != decide (den < 0)) magnitude) (num / den) := by
  have habs : ∀ n : ℤ, (n : ℚ) = if n < 0 then -((n.natAbs : ℤ) : ℚ) else (n.natAbs : ℤ) := by
    intro n
    split_ifs
    · rw [← Int.cast_neg, Int.cast_inj]
      omega
    · rw [Int.cast_inj]
      omega
  rw [habs num, habs den, ImpTree.signed]
  by_cases hnum : num < 0 <;> by_cases hden : den < 0
  · simpa [hnum, hden, neg_div_neg_eq] using h
  · simpa [hnum, hden, neg_div] using h.neg
  · simpa [hnum, hden, div_neg] using h.neg
  · simpa [hnum, hden] using h

namespace Decimal

variable {a b q r : Decimal} {x : ℚ} {scale : Nat}

/-! ## Rounding to a scale -/

/-- The decimal has the scale, is at most half a unit of its last digit away from the number, and is
even in its last digit if it is half a unit away. -/
structure Rounds (q : Decimal) (x : ℚ) (scale : Nat) : Prop where
  /-- It has the scale. -/
  scale_eq : q.scale = scale
  /-- No other decimal of the scale is nearer. -/
  near : |q.size - x| ≤ 1 / 10 ^ scale / 2
  /-- Half-way between two decimals of the scale, it is the even one. -/
  even : |q.size - x| = 1 / 10 ^ scale / 2 → Even q.unscaled

/-- The distance to a number, in units of the last digit. -/
theorem abs_size_sub (q : Decimal) (x : ℚ) :
    |q.size - x| = |q.unscaled - x * 10 ^ q.scale| / 10 ^ q.scale := by
  rw [eq_div_iff (ten_pow_ne_zero _), ← q.size_mul_ten_pow, ← sub_mul, abs_mul,
    abs_of_pos (ten_pow_pos _)]

/-- Rounding to a scale is rounding to an integer after the point has been moved. -/
theorem rounds_iff :
    q.Rounds x scale ↔ q.scale = scale ∧ NearestEven q.unscaled (x * 10 ^ scale) := by
  constructor
  · rintro ⟨rfl, hnear, heven⟩
    rw [abs_size_sub, div_right_comm, div_le_div_iff_of_pos_right (ten_pow_pos _)] at hnear
    rw [abs_size_sub, div_right_comm, div_left_inj' (ten_pow_ne_zero _)] at heven
    exact ⟨rfl, hnear, heven⟩
  · rintro ⟨rfl, hnear, heven⟩
    refine ⟨rfl, ?_, ?_⟩
    · rwa [abs_size_sub, div_right_comm, div_le_div_iff_of_pos_right (ten_pow_pos _)]
    · rwa [abs_size_sub, div_right_comm, div_left_inj' (ten_pow_ne_zero _)]

/-- One decimal only is the rounded number. -/
theorem Rounds.unique (hq : q.Rounds x scale) (hr : r.Rounds x scale) : q = r := by
  obtain ⟨hqscale, hq⟩ := rounds_iff.1 hq
  obtain ⟨hrscale, hr⟩ := rounds_iff.1 hr
  exact eq_of_scale_eq (hq.unique hr) (hqscale.trans hrscale.symm)

/-- No decimal of the scale is nearer. -/
theorem Rounds.le (hq : q.Rounds x scale) (hr : r.scale = scale) :
    |q.size - x| ≤ |r.size - x| := by
  obtain ⟨hqscale, hq⟩ := rounds_iff.1 hq
  rw [abs_size_sub, abs_size_sub, hqscale, hr, div_le_div_iff_of_pos_right (ten_pow_pos _)]
  exact hq.le r.unscaled

/-! ## Negation -/

/-- The number with the other sign. -/
def neg (d : Decimal) : Decimal := ⟨-d.unscaled, d.places⟩

@[simp]
theorem size_neg (d : Decimal) : d.neg.size = -d.size := by
  rw [size, neg, Int.cast_neg, neg_div]
  rfl

theorem Rounds.neg (h : q.Rounds x scale) : q.neg.Rounds (-x) scale := by
  obtain ⟨hscale, hq⟩ := rounds_iff.1 h
  exact rounds_iff.2 ⟨hscale, neg_mul x _ ▸ hq.neg⟩

/-! ## Quotients -/

theorem size_eq_zero_iff : b.size = 0 ↔ b.unscaled = 0 := by
  rw [size, div_eq_zero_iff, or_iff_left (ten_pow_ne_zero _), Int.cast_eq_zero]

/-- There is no quotient exactly if the divisor is zero in size. -/
theorem div?_eq_none_iff : a.div? b = none ↔ b.size = 0 := by
  rw [size_eq_zero_iff, div?, isZero]
  by_cases hb : b.unscaled = 0
  · simp [hb]
  · simp [hb]

/-- The exact quotient with its point moved is a quotient of integers: the divisor's scale goes into
the numerator. -/
theorem size_div_size_mul (a b : Decimal) :
    a.size / b.size * 10 ^ a.scale = ((a.unscaled * 10 ^ b.scale : ℤ) : ℚ) / b.unscaled := by
  rw [Int.cast_mul, Int.cast_pow, Int.cast_ofNat, size, size, div_div_div_eq, div_mul_eq_mul_div,
    mul_comm (10 ^ a.scale : ℚ), mul_div_mul_right _ _ (ten_pow_ne_zero _)]

/-- The quotient by a divisor that is not zero is the quotient of two integers, with its sign
apart. -/
theorem div?_of_ne_zero (hb : b.unscaled ≠ 0) :
    ∃ magnitude : Nat, NearestEven magnitude
        (((a.unscaled * 10 ^ b.scale).natAbs : ℤ) / (b.unscaled.natAbs : ℤ) : ℚ) ∧
      a.div? b =
        some ⟨signed (decide (a.unscaled * 10 ^ b.scale < 0) != decide (b.unscaled < 0)) magnitude,
          a.places⟩ := by
  have hpos : (0 : ℤ) < 10 ^ b.scale := pow_pos (by decide) _
  have hsign : decide (a.unscaled * 10 ^ b.scale < 0) = decide (a.unscaled < 0) :=
    decide_eq_decide.2 (by simp [mul_neg_iff, hpos, hpos.le])
  have habs : (a.unscaled * 10 ^ b.scale).natAbs = a.unscaled.natAbs * Nat.pow 10 b.scale := by
    rw [Int.natAbs_mul, Int.natAbs_pow]
    rfl
  refine ⟨_, roundedQuotient_nearest _ (Int.natAbs_pos.2 hb), ?_⟩
  rw [hsign, habs, div?, isZero, if_neg (by rwa [beq_iff_eq])]

/-- **The quotient** is the exact one, rounded to the scale of the dividend. -/
theorem div?_rounds (hb : b.size ≠ 0) :
    ∃ q, a.div? b = some q ∧ q.Rounds (a.size / b.size) a.scale := by
  obtain ⟨magnitude, hnearest, hdiv⟩ := div?_of_ne_zero (a := a) (mt size_eq_zero_iff.2 hb)
  refine ⟨_, hdiv, rounds_iff.2 ⟨rfl, ?_⟩⟩
  rw [size_div_size_mul]
  exact hnearest.signed

/-- The quotient is what rounding towards zero and correcting by what is left over gives. -/
theorem div?_eq_corrected (hb : b.unscaled ≠ 0) :
    a.div? b = some ⟨correctedQuotient (a.unscaled * 10 ^ b.scale) b.unscaled, a.places⟩ := by
  obtain ⟨magnitude, hnearest, hdiv⟩ := div?_of_ne_zero (a := a) hb
  rw [hdiv, hnearest.signed.unique (correctedQuotient_nearest _ hb)]

/-- A quotient is given by its scale and by the exact quotient. -/
theorem div?_eq_some_iff :
    a.div? b = some q ↔ b.size ≠ 0 ∧ q.Rounds (a.size / b.size) a.scale := by
  constructor
  · intro h
    have hb : b.size ≠ 0 := fun hzero => by simp [div?_eq_none_iff.2 hzero] at h
    obtain ⟨r, hr, hrounds⟩ := div?_rounds (a := a) hb
    cases hr.symm.trans h
    exact ⟨hb, hrounds⟩
  · rintro ⟨hb, hq⟩
    obtain ⟨r, hr, hrounds⟩ := div?_rounds (a := a) hb
    rw [hr, hrounds.unique hq]

/-- Operands of one exact quotient and one scale have one quotient. -/
theorem div?_congr {a' b' : Decimal} (hscale : a.scale = a'.scale)
    (hzero : b.size = 0 ↔ b'.size = 0) (hsize : a.size / b.size = a'.size / b'.size) :
    a.div? b = a'.div? b' := by
  ext q
  rw [div?_eq_some_iff, div?_eq_some_iff, hscale, hsize, ne_eq, ne_eq, hzero]

/-- Operands whose exact quotients differ in sign have quotients that differ in sign. -/
theorem div?_neg_of_size {a' b' : Decimal} (hscale : a'.scale = a.scale)
    (hzero : b'.size = 0 ↔ b.size = 0) (hsize : a'.size / b'.size = -(a.size / b.size)) :
    a'.div? b' = (a.div? b).map neg := by
  by_cases hb : b.size = 0
  · rw [div?_eq_none_iff.2 hb, div?_eq_none_iff.2 (hzero.2 hb)]
    rfl
  · obtain ⟨q, hq, hrounds⟩ := div?_rounds (a := a) hb
    rw [hq, Option.map_some, div?_eq_some_iff, hsize, hscale]
    exact ⟨mt hzero.1 hb, hrounds.neg⟩

/-- **Division is correctly rounded.**  There is no quotient exactly if the divisor is zero in size.
Otherwise the quotient has the scale of the dividend and is at most half a unit of its last digit
away from the exact quotient, and even in its last digit if it is half a unit away; it is the only
decimal of which this is true, and no other decimal of its scale is nearer.  So a quotient changes
its sign with either operand, and it stays the same, digit for digit, if the divisor is written at
another scale. -/
theorem division_rounded (a b : Decimal) :
    (a.div? b = none ↔ b.size = 0) ∧
    (b.size ≠ 0 → ∃ q, a.div? b = some q ∧
      (∀ r : Decimal, r.Rounds (a.size / b.size) a.scale ↔ r = q) ∧
      ∀ r : Decimal, r.scale = a.scale → |q.size - a.size / b.size| ≤ |r.size - a.size / b.size|) ∧
    a.neg.div? b = (a.div? b).map neg ∧ a.div? b.neg = (a.div? b).map neg ∧
    ∀ b' : Decimal, b'.same b = true → a.div? b' = a.div? b := by
  refine ⟨div?_eq_none_iff, fun hb => ?rounded, ?dividend, ?divisor, fun b' hsame => ?rescaled⟩
  case rounded =>
    obtain ⟨q, hq, hrounds⟩ := div?_rounds (a := a) hb
    exact ⟨q, hq, fun r => ⟨fun hr => hr.unique hrounds, fun hr => hr ▸ hrounds⟩,
      fun r hr => hrounds.le hr⟩
  case dividend => exact div?_neg_of_size rfl Iff.rfl (by rw [size_neg, neg_div])
  case divisor =>
    exact div?_neg_of_size rfl (by rw [size_neg, neg_eq_zero]) (by rw [size_neg, div_neg])
  case rescaled =>
    have hsize := (same_iff b' b).1 hsame
    exact div?_congr rfl (by rw [hsize]) (by rw [hsize])

/-- A quarter and three quarters are half-way between two decimals of one digit; the divisor may be
written at any scale. -/
theorem division_rounded_halfway :
    (⟨400, 2⟩ : Decimal).size ≠ 0 ∧ (⟨4, 0⟩ : Decimal).same ⟨400, 2⟩ = true ∧
      (⟨10, 1⟩ : Decimal).div? ⟨4, 0⟩ = (⟨10, 1⟩ : Decimal).div? ⟨400, 2⟩ ∧
      (⟨2, 1⟩ : Decimal).Rounds ((⟨10, 1⟩ : Decimal).size / (⟨400, 2⟩ : Decimal).size) 1 ∧
      (⟨-30, 1⟩ : Decimal).div? ⟨400, 2⟩ = some ⟨-8, 1⟩ := by
  have hne : (⟨400, 2⟩ : Decimal).size ≠ 0 := mt size_eq_zero_iff.1 (by decide)
  have hsame : (⟨4, 0⟩ : Decimal).same ⟨400, 2⟩ = true := by decide
  have hrounded := division_rounded ⟨10, 1⟩ ⟨400, 2⟩
  obtain ⟨q, hq, hiff, -⟩ := hrounded.2.1 hne
  have hvalue : q = ⟨2, 1⟩ := Option.some.inj (hq.symm.trans (by decide))
  exact ⟨hne, hsame, hrounded.2.2.2.2 _ hsame, (hiff _).2 hvalue.symm, by decide⟩

end Decimal

end ImpTree
