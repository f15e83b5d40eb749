import ImpTree.Binary64
import ImpTree.Proofs.Decimals.Division
import Mathlib

/-!
# The nearest binary number

The magnitude patterns of the binary format are ordered as the numbers that they stand for.  So the
pattern that is nearest to a number, the even one of two, is determined by the number; from this
alone follows that rounding is monotone and where it leaves the finite numbers.

* `Binary64.units_succ`, `Binary64.magnitude_strictMono` — patterns in order.
* `Binary64.NearestAmong` — a pattern is nearest to a number, and even if another is as near.
* `NearestAmong.unique`, `NearestAmong.mono` — one pattern for one number, in the same order.
* `Binary64.nearestPattern_nearest` — **`nearestPattern` is correctly rounded.**
* `NearestAmong.eq_infinityPattern_iff` — **which numbers are rounded to infinity.**
-/

namespace ImpTree.Binary64

/-! ## Magnitudes -/

/-- A pattern is put together from its exponent and its significand. -/
theorem exponent_mul_add_significand (p : ℕ) : exponent p * 2 ^ 52 + significand p = p := by
  rw [exponent, significand]
  simp only [Nat.pow_eq]
  split_ifs with hp <;> omega

theorem significand_lt (p : ℕ) : significand p < 2 ^ 53 := by
  rw [significand]
  simp only [Nat.pow_eq]
  split_ifs with hp <;> omega

theorem le_significand {p : ℕ} (h : exponent p ≠ 0) : 2 ^ 52 ≤ significand p := by
  rw [exponent] at h
  rw [significand]
  simp only [Nat.pow_eq] at h ⊢
  split_ifs with hp <;> omega

/-- A whole number with 53 bits, or with fewer if there is no exponent, at its place in the
pattern. -/
theorem units_add {shift n : ℕ} (hlow : shift ≠ 0 → 2 ^ 52 ≤ n) (hhigh : n ≤ 2 ^ 53) :
    units (shift * 2 ^ 52 + n) = n * 2 ^ shift := by
  rw [units, exponent, significand]
  simp only [Nat.pow_eq]
  rcases Nat.lt_or_ge n (2 ^ 52) with hn | hn
  · -- without an exponent
    obtain rfl : shift = 0 := by
      by_contra h
      exact absurd (hlow h) (not_le.2 hn)
    rw [if_pos (by omega), Nat.div_eq_of_lt (by omega), Nat.zero_mul, Nat.zero_add]
  · rw [if_neg (by omega)]
    rcases Nat.lt_or_eq_of_le hhigh with hlt | rfl
    · have hdiv : (shift * 2 ^ 52 + n) / 2 ^ 52 - 1 = shift := by omega
      have hmod : 2 ^ 52 + (shift * 2 ^ 52 + n) % 2 ^ 52 = n := by omega
      rw [hdiv, hmod]
    · -- all 53 bits are carried over: the exponent grows by one
      have hdiv : (shift * 2 ^ 52 + 2 ^ 53) / 2 ^ 52 - 1 = shift + 1 := by omega
      have hmod : 2 ^ 52 + (shift * 2 ^ 52 + 2 ^ 53) % 2 ^ 52 = 2 ^ 52 := by omega
      rw [hdiv, hmod, Nat.pow_succ]
      ring

/-- From one pattern to the next, the last bit counts. -/
theorem units_succ (p : ℕ) : units (p + 1) = units p + 2 ^ exponent p := by
  have hnext : units (exponent p * 2 ^ 52 + (significand p + 1)) =
      (significand p + 1) * 2 ^ exponent p :=
    units_add (fun h => (le_significand h).trans (Nat.le_succ _)) (significand_lt p)
  rw [← Nat.add_assoc, exponent_mul_add_significand] at hnext
  rw [hnext, units, Nat.pow_eq, Nat.add_mul, Nat.one_mul]

theorem units_strictMono : StrictMono units :=
  strictMono_nat_of_lt_succ fun p => by
    rw [units_succ]
    exact Nat.lt_add_of_pos_right (Nat.two_pow_pos _)

/-- The number that a pattern stands for.  The pattern of infinity stands for `2 ^ 1024`, the power
of two that comes after the finite numbers. -/
def magnitude (p : ℕ) : ℚ := units p / 2 ^ 1074

theorem magnitude_strictMono : StrictMono magnitude := by
  intro p q h
  have hunits : (units p : ℚ) < units q := by exact_mod_cast units_strictMono h
  exact div_lt_div_of_pos_right hunits (by positivity)

/-- Distances in units. -/
theorem abs_magnitude_sub (p : ℕ) (x : ℚ) :
    |magnitude p - x| = |units p - x * 2 ^ 1074| / 2 ^ 1074 := by
  have hpos : (0 : ℚ) < 2 ^ 1074 := by positivity
  rw [magnitude, ← abs_of_pos hpos, ← abs_div, abs_of_pos hpos, sub_div,
    mul_div_cancel_right₀ _ hpos.ne']

theorem magnitude_nonneg (p : ℕ) : 0 ≤ magnitude p := by
  unfold magnitude
  positivity

theorem magnitude_eq_zero_iff {p : ℕ} : magnitude p = 0 ↔ p = 0 := by
  have hzero : magnitude 0 = 0 := by
    have hunits : units 0 = 0 := by decide
    rw [magnitude, hunits, Nat.cast_zero, zero_div]
  rw [← hzero, magnitude_strictMono.injective.eq_iff]

/-- The number, with infinity as `2 ^ 1024`. -/
def size (x : Binary64) : ℚ := if x.negative then -magnitude x.pattern else magnitude x.pattern

/-- Keys are ordered as the numbers are. -/
theorem key_le_key_iff {x y : Binary64} : x.key ≤ y.key ↔ x.size ≤ y.size := by
  have hx := magnitude_nonneg x.pattern
  have hy := magnitude_nonneg y.pattern
  rw [key, key, size, size]
  cases x.negative <;> cases y.negative
  · rw [if_neg (by decide), if_neg (by decide), if_neg (by decide), if_neg (by decide),
      magnitude_strictMono.le_iff_le, Nat.cast_le]
  · -- a number without a sign is at most one with a sign only if both are zero
    rw [if_neg (by decide), if_pos rfl, if_neg (by decide), if_pos rfl]
    constructor
    · intro h
      have hxzero : x.pattern = 0 := by omega
      have hyzero : y.pattern = 0 := by omega
      rw [magnitude_eq_zero_iff.2 hxzero, magnitude_eq_zero_iff.2 hyzero, neg_zero]
    · intro h
      have hxzero : x.pattern = 0 := magnitude_eq_zero_iff.1 (by linarith)
      have hyzero : y.pattern = 0 := magnitude_eq_zero_iff.1 (by linarith)
      omega
  · rw [if_pos rfl, if_neg (by decide), if_pos rfl, if_neg (by decide)]
    exact iff_of_true (by omega) (by linarith)
  · rw [if_pos rfl, if_pos rfl, if_pos rfl, if_pos rfl, neg_le_neg_iff, neg_le_neg_iff,
      magnitude_strictMono.le_iff_le, Nat.cast_le]

/-! ## Nearest patterns -/

section Nearer

variable {a b x : ℚ}

/-- The greater of two numbers is at least as near exactly from half-way between them on. -/
theorem greater_near_iff (h : a < b) : |b - x| ≤ |a - x| ↔ a + b ≤ 2 * x := by
  have hsquares : (a - x) ^ 2 - (b - x) ^ 2 = (b - a) * (2 * x - (a + b)) := by ring
  rw [← sq_le_sq, ← sub_nonneg, hsquares, mul_nonneg_iff_of_pos_left (sub_pos.2 h), sub_nonneg]

/-- The smaller of two numbers is at least as near exactly up to half-way between them. -/
theorem smaller_near_iff (h : a < b) : |a - x| ≤ |b - x| ↔ 2 * x ≤ a + b := by
  have hsquares : (b - x) ^ 2 - (a - x) ^ 2 = (b - a) * (a + b - 2 * x) := by ring
  rw [← sq_le_sq, ← sub_nonneg, hsquares, mul_nonneg_iff_of_pos_left (sub_pos.2 h), sub_nonneg]

end Nearer

/-- The pattern stands for a number that is nearest to the given one among some patterns, and it is
even if another pattern is as near. -/
structure NearestAmong (patterns : Set ℕ) (p : ℕ) (x : ℚ) : Prop where
  /-- It is one of these patterns. -/
  mem : p ∈ patterns
  /-- None of them is nearer. -/
  near : ∀ q ∈ patterns, |magnitude p - x| ≤ |magnitude q - x|
  /-- If another one is as near, it is the even one. -/
  even : ∀ q ∈ patterns, q ≠ p → |magnitude q - x| = |magnitude p - x| → Even p

namespace NearestAmong

variable {limit p q : ℕ} {x y : ℚ}

/-- There is no greater nearest pattern: it would be even like the first one, and the odd pattern
between them would be nearer. -/
theorem le (hp : NearestAmong (Set.Iic limit) p x) (hq : NearestAmong (Set.Iic limit) q x) :
    q ≤ p := by
  by_contra hle
  have hlt := not_le.1 hle
  have hsame : |magnitude q - x| = |magnitude p - x| :=
    le_antisymm (hq.near p hp.mem) (hp.near q hq.mem)
  have hpeven := hp.even q hq.mem hlt.ne' hsame
  have hqeven := hq.even p hp.mem hlt.ne hsame.symm
  have hbetween : p + 1 < q := by
    refine lt_of_le_of_ne hlt fun heq => ?_
    exact Nat.not_even_iff_odd.2 (heq ▸ hpeven.add_one) hqeven
  have hnext := (smaller_near_iff (magnitude_strictMono (Nat.lt_succ_self p))).1
    (hp.near (p + 1) (hbetween.le.trans hq.mem))
  have hfar := (greater_near_iff (magnitude_strictMono hlt)).1 hsame.le
  linarith [magnitude_strictMono hbetween]

/-- There is one nearest pattern. -/
theorem unique (hp : NearestAmong (Set.Iic limit) p x) (hq : NearestAmong (Set.Iic limit) q x) :
    p = q :=
  le_antisymm (hq.le hp) (hp.le hq)

/-- **Rounding is monotone.** -/
theorem mono (hp : NearestAmong (Set.Iic limit) p x) (hq : NearestAmong (Set.Iic limit) q y)
    (h : x ≤ y) : p ≤ q := by
  by_contra hlt
  have hmagnitude := magnitude_strictMono (not_le.1 hlt)
  have hx := (greater_near_iff hmagnitude).1 (hp.near q hq.mem)
  have hy := (smaller_near_iff hmagnitude).1 (hq.near p hp.mem)
  -- both numbers are half-way between the two patterns
  obtain rfl : x = y := by linarith
  exact hlt (hp.unique hq).le

/-- Beyond a greatest pattern, everything is rounded to it. -/
theorem cut (hp : NearestAmong Set.univ p x) (limit : ℕ) :
    NearestAmong (Set.Iic limit) (min p limit) x := by
  rcases le_or_gt p limit with hle | hlt
  · rw [min_eq_left hle]
    exact ⟨hle, fun q _ => hp.near q trivial, fun q _ => hp.even q trivial⟩
  · rw [min_eq_right hlt.le]
    have hbeyond : magnitude limit < x := by
      have hhalf := (greater_near_iff (magnitude_strictMono hlt)).1 (hp.near limit trivial)
      linarith [magnitude_strictMono hlt]
    have hdist : ∀ q ≤ limit, |magnitude q - x| = x - magnitude q := fun q hq => by
      have hle := magnitude_strictMono.monotone hq
      rw [abs_of_nonpos (by linarith), neg_sub]
    refine ⟨Set.mem_Iic.2 le_rfl, fun q hq => ?_, fun q hq hne hsame => ?_⟩
    · rw [hdist q hq, hdist limit le_rfl]
      linarith [magnitude_strictMono.monotone hq]
    · rw [hdist q hq, hdist limit le_rfl] at hsame
      have hless := magnitude_strictMono (lt_of_le_of_ne hq hne)
      linarith

end NearestAmong

/-! ## Rounding -/

section Grid

variable {shift n p : ℕ} {y : ℚ}

/-- Distances in multiples of a power of two. -/
theorem abs_mul_two_pow_sub (a : ℚ) :
    |a * 2 ^ shift - y| = |a - y / 2 ^ shift| * 2 ^ shift := by
  have hpos : (0 : ℚ) < 2 ^ shift := by positivity
  rw [← abs_of_pos hpos, ← abs_mul, abs_of_pos hpos, sub_mul, div_mul_cancel₀ _ hpos.ne']

/-- A pattern whose exponent is at least the shift stands for a multiple of the power of two. -/
theorem units_of_le (h : shift ≤ exponent p) : ∃ k : ℕ, units p = k * 2 ^ shift := by
  obtain ⟨more, hmore⟩ := Nat.exists_eq_add_of_le h
  refine ⟨significand p * 2 ^ more, ?_⟩
  rw [units, Nat.pow_eq, hmore, pow_add]
  ring

/-- A pattern whose exponent is smaller stands for less than the 53 bits at the shift. -/
theorem units_of_lt (h : exponent p < shift) : units p < 2 ^ 52 * 2 ^ shift := by
  have hunits : units p < 2 ^ 53 * 2 ^ exponent p :=
    Nat.mul_lt_mul_of_pos_right (significand_lt p) (Nat.two_pow_pos _)
  have hpower : 2 ^ 53 * 2 ^ exponent p ≤ 2 ^ 52 * 2 ^ shift := by
    rw [← pow_add, ← pow_add]
    exact Nat.pow_le_pow_right (by norm_num) (by omega)
  exact hunits.trans_le hpower

/-- The nearest multiple of a power of two is nearer than the numbers of all other patterns, or as
near and an even multiple.  It has at least 53 bits unless nothing is shifted, so patterns with
smaller exponents stand for smaller numbers. -/
theorem grid_nearer (hn : NearestEven n (y / 2 ^ shift))
    (hlow : shift ≠ 0 → ((2 ^ 52 : ℕ) : ℚ) ≤ y / 2 ^ shift) (hp : units p ≠ n * 2 ^ shift) :
    |(n * 2 ^ shift : ℚ) - y| < |units p - y| ∨
      |(n * 2 ^ shift : ℚ) - y| = |units p - y| ∧ Even n := by
  have hpos : (0 : ℚ) < 2 ^ shift := by positivity
  rcases le_or_gt shift (exponent p) with hle | hlt
  · -- the other number is a multiple of the same power of two
    obtain ⟨k, hunits⟩ := units_of_le hle
    have hne : (k : ℤ) ≠ n := fun heq => hp (by rw [hunits, Int.natCast_inj.1 heq])
    have hnear := hn.lt_or_even hne
    rw [Int.cast_natCast, Int.cast_natCast, Int.even_coe_nat] at hnear
    rw [hunits, Nat.cast_mul, Nat.cast_pow, Nat.cast_ofNat, abs_mul_two_pow_sub,
      abs_mul_two_pow_sub, mul_lt_mul_iff_left₀ hpos, mul_left_inj' hpos.ne']
    exact hnear
  · -- the other number is smaller than the least one with this shift
    have hless : (units p : ℚ) < (2 ^ 52 : ℕ) * 2 ^ shift := by exact_mod_cast units_of_lt hlt
    have hleast := hlow (by omega)
    generalize 2 ^ 52 = least at hless hleast
    have hbound : (least : ℚ) * 2 ^ shift ≤ y := (le_div_iff₀ hpos).1 hleast
    have hnear : |(n : ℚ) - y / 2 ^ shift| ≤ |least - y / 2 ^ shift| := by
      simpa only [Int.cast_natCast] using hn.le least
    left
    calc |(n * 2 ^ shift : ℚ) - y| ≤ |least * 2 ^ shift - y| := by
          rw [abs_mul_two_pow_sub, abs_mul_two_pow_sub]
          exact mul_le_mul_of_nonneg_right hnear hpos.le
      _ = y - least * 2 ^ shift := by rw [abs_of_nonpos (by linarith), neg_sub]
      _ < y - units p := by linarith
      _ = |units p - y| := by rw [abs_of_nonpos (by linarith), neg_sub]

/-- Rounding to a multiple of a power of two gives a nearest pattern, if 53 bits are left or nothing
is shifted. -/
theorem NearestAmong.of_grid {x : ℚ} (hn : NearestEven n (x * 2 ^ 1074 / 2 ^ shift))
    (hlow : shift ≠ 0 → ((2 ^ 52 : ℕ) : ℚ) ≤ x * 2 ^ 1074 / 2 ^ shift)
    (hhigh : x * 2 ^ 1074 / 2 ^ shift ≤ (2 ^ 53 : ℕ)) :
    NearestAmong Set.univ (shift * 2 ^ 52 + n) x := by
  have hpos : (0 : ℚ) < 2 ^ 1074 := by positivity
  have hunits : units (shift * 2 ^ 52 + n) = n * 2 ^ shift :=
    units_add (fun h => hn.natCast_le (hlow h)) (hn.le_natCast hhigh)
  have hcast : (units (shift * 2 ^ 52 + n) : ℚ) = n * 2 ^ shift := by
    rw [hunits]
    push_cast
    rfl
  have hother : ∀ q, q ≠ shift * 2 ^ 52 + n →
      |magnitude (shift * 2 ^ 52 + n) - x| < |magnitude q - x| ∨
        |magnitude (shift * 2 ^ 52 + n) - x| = |magnitude q - x| ∧ Even n := by
    intro q hq
    have hne : units q ≠ n * 2 ^ shift := fun heq =>
      hq (units_strictMono.injective (heq.trans hunits.symm))
    rw [abs_magnitude_sub, abs_magnitude_sub, hcast, div_lt_div_iff_of_pos_right hpos,
      div_left_inj' hpos.ne']
    exact grid_nearer hn hlow hne
  refine ⟨trivial, fun q _ => ?_, fun q _ hq hsame => ?_⟩
  · by_cases hq : q = shift * 2 ^ 52 + n
    · rw [hq]
    · rcases hother q hq with hless | ⟨hsame, -⟩
      · exact hless.le
      · exact hsame.le
  · rcases hother q hq with hless | ⟨-, heven⟩
    · exact absurd hsame hless.ne'
    · exact (Even.mul_left (by decide) shift).add heven

end Grid

/-- As many low bits of a quotient are shifted away as leave 53 bits. -/
theorem shift_bounds {scaled den shift : ℕ} (hden : 0 < den)
    (hshift : (scaled / den).log2 - 52 = shift) :
    (shift ≠ 0 → 2 ^ 52 * (den * 2 ^ shift) ≤ scaled) ∧
      scaled ≤ 2 ^ 53 * (den * 2 ^ shift) := by
  constructor
  · intro h
    have hlog : (scaled / den).log2 = 52 + shift := by omega
    have hne : scaled / den ≠ 0 := by
      intro hzero
      rw [hzero, Nat.log2_zero] at hlog
      omega
    have hlow : 2 ^ (52 + shift) ≤ scaled / den := hlog ▸ Nat.log2_self_le hne
    rw [Nat.le_div_iff_mul_le hden, pow_add] at hlow
    linarith
  · have hhigh : scaled / den < 2 ^ (53 + shift) :=
      Nat.lt_log2_self.trans_le (Nat.pow_le_pow_right (by norm_num) (by omega))
    rw [Nat.div_lt_iff_lt_mul hden, pow_add] at hhigh
    linarith

/-- The steps of `nearestPattern`, with a name for the number of units, which is too large to be
computed with. -/
theorem nearestPattern_eq (num den : ℕ) :
    ∃ unit : ℕ, (unit : ℚ) = 2 ^ 1074 ∧
      nearestPattern num den =
        min (((num * unit / den).log2 - 52) * 2 ^ 52 +
          roundedQuotient (num * unit) (den * 2 ^ ((num * unit / den).log2 - 52)))
          infinityPattern := by
  refine ⟨_, ?_, rfl⟩
  apply Nat.cast_pow

/-- **`nearestPattern` is correctly rounded**: it is nearest among the patterns of the finite
numbers and of infinity, and the even one of two that are nearest. -/
theorem nearestPattern_nearest (num : ℕ) {den : ℕ} (hden : 0 < den) :
    NearestAmong (Set.Iic infinityPattern) (nearestPattern num den) (num / den) := by
  obtain ⟨unit, hunit, heq⟩ := nearestPattern_eq num den
  obtain ⟨shift, hshift⟩ : ∃ shift, (num * unit / den).log2 - 52 = shift := ⟨_, rfl⟩
  obtain ⟨hlow, hhigh⟩ := shift_bounds hden hshift
  have hstep : 0 < den * 2 ^ shift := Nat.mul_pos hden (Nat.two_pow_pos shift)
  have hstep' : (0 : ℚ) < (den * 2 ^ shift : ℕ) := by exact_mod_cast hstep
  have hquotient : (num / den : ℚ) * 2 ^ 1074 / 2 ^ shift =
      (num * unit : ℕ) / (den * 2 ^ shift : ℕ) := by
    rw [Nat.cast_mul, Nat.cast_mul, Nat.cast_pow, Nat.cast_ofNat, hunit, div_mul_eq_mul_div,
      div_div]
  have hnearest := roundedQuotient_nearest (num * unit) hstep
  rw [Int.cast_natCast, Int.cast_natCast, ← hquotient] at hnearest
  rw [heq, hshift]
  refine (NearestAmong.of_grid hnearest (fun h => ?_) ?_).cut infinityPattern
  · rw [hquotient, le_div_iff₀ hstep']
    exact_mod_cast hlow h
  · rw [hquotient, div_le_iff₀ hstep']
    exact_mod_cast hhigh

example : nearestPattern 1 10 = 0x3FB999999999999A := by decide +kernel

/-! ## Infinity -/

/-- The numbers with the greatest exponent of finite numbers, up to infinity. -/
theorem magnitude_add {n : ℕ} (hlow : 2 ^ 52 ≤ n) (hhigh : n ≤ 2 ^ 53) :
    magnitude (2045 * 2 ^ 52 + n) = n * 2 ^ 971 := by
  have hpower : (2 : ℚ) ^ 2045 = 2 ^ 971 * 2 ^ 1074 := by rw [← pow_add]
  have hcast : (units (2045 * 2 ^ 52 + n) : ℚ) = n * 2 ^ 2045 := by
    rw [units_add (fun _ => hlow) hhigh, Nat.cast_mul, Nat.cast_pow, Nat.cast_ofNat]
  rw [magnitude, hcast, hpower, ← mul_assoc, mul_div_cancel_right₀ _ (by positivity)]

/-- The greatest finite number and infinity stand on either side of the number from which on numbers
are rounded to infinity. -/
theorem magnitude_add_magnitude_infinityPattern :
    magnitude (infinityPattern - 1) + magnitude infinityPattern = 2 * (2 ^ 1024 - 2 ^ 970) := by
  have hinfinity : infinityPattern = 2045 * 2 ^ 52 + 2 ^ 53 := rfl
  have hlast : infinityPattern - 1 = 2045 * 2 ^ 52 + (2 ^ 53 - 1) := rfl
  have hpower : (2 : ℚ) ^ 1024 = 2 ^ 53 * (2 * 2 ^ 970) := by rw [← pow_succ', ← pow_add]
  have hpower' : (2 : ℚ) ^ 971 = 2 * 2 ^ 970 := by rw [← pow_succ']
  rw [hlast, hinfinity, magnitude_add (by norm_num) (by norm_num),
    magnitude_add (by norm_num) (by norm_num), hpower, hpower']
  generalize (2 : ℚ) ^ 970 = step
  norm_num
  ring

/-- **Which numbers are rounded to infinity**: those from half-way between the greatest finite
number and `2 ^ 1024` on. -/
theorem NearestAmong.eq_infinityPattern_iff {p : ℕ} {x : ℚ}
    (hp : NearestAmong (Set.Iic infinityPattern) p x) :
    p = infinityPattern ↔ 2 ^ 1024 - 2 ^ 970 ≤ x := by
  have hlast : infinityPattern - 1 < infinityPattern := by decide
  have hodd : ¬Even (infinityPattern - 1) := by decide
  have hmem : infinityPattern ∈ Set.Iic infinityPattern := Set.mem_Iic.2 le_rfl
  have hiff := greater_near_iff (x := x) (magnitude_strictMono hlast)
  rw [magnitude_add_magnitude_infinityPattern, mul_le_mul_iff_right₀ two_pos] at hiff
  rw [← hiff]
  constructor
  · rintro rfl
    exact hp.near _ hlast.le
  · intro hnear
    by_contra hne
    -- a smaller pattern can only be as near if it is the last one before infinity, which is odd
    have hless : p < infinityPattern := lt_of_le_of_ne hp.mem hne
    have hle : p ≤ infinityPattern - 1 := Nat.le_sub_one_of_lt hless
    have hfar := (smaller_near_iff (magnitude_strictMono hless)).1 (hp.near _ hmem)
    have hhalf := (greater_near_iff (magnitude_strictMono hlast)).1 hnear
    have hp' : p = infinityPattern - 1 :=
      hle.antisymm (magnitude_strictMono.le_iff_le.1 (by linarith))
    subst hp'
    exact hodd (hp.even _ hmem (Ne.symm hne) (le_antisymm hnear (hp.near _ hmem)))

end ImpTree.Binary64
