import ImpTree.Proofs.Run.Steps
import ImpTree.Tree.Build
import Mathlib.Algebra.Order.Ring.Int

/-!
# Powers

Repeated squaring halves the exponent and squares the base; a factor that would be lost in halving
is accumulated.  What has been accumulated times the power that is left does not change from round
to round, so in the end the power itself has been accumulated.

* `round_mul_pow` — what a round keeps.
* `powerFrom_eq`, `power_eq` — what all rounds together compute.
* `Value.raised_integer`, `Value.raised_eq_negativeExponent_iff` — powers of values, and which of
  them fail.
* `Value.evaluate_pow_add`, `Value.evaluate_pow_mul` — their laws in running programs.
* `Value.powers_exact` — **powers are exact, and their laws hold of running programs.**
-/

namespace ImpTree

/-! ## Repeated squaring -/

/-- **What a round keeps**: an odd exponent gives one factor away before it is halved. -/
theorem round_mul_pow (accumulated base : ℤ) (exponent : ℕ) :
    (if exponent % 2 = 1 then accumulated * base else accumulated) *
      (base * base) ^ (exponent / 2) = accumulated * base ^ exponent := by
  have hsquares : (base * base) ^ (exponent / 2) = base ^ (2 * (exponent / 2)) := by
    rw [← pow_two, ← pow_mul]
  have hhalves : exponent = exponent % 2 + 2 * (exponent / 2) := (Nat.mod_add_div exponent 2).symm
  rw [hsquares]
  by_cases hodd : exponent % 2 = 1
  · conv_rhs => rw [hhalves, hodd, pow_add, pow_one]
    rw [if_pos hodd, mul_assoc]
  · have heven : exponent % 2 = 0 := by omega
    conv_rhs => rw [hhalves, heven, zero_add]
    rw [if_neg hodd]

/-- **What the rounds compute**, by induction on the exponent, which every round halves. -/
theorem powerFrom_eq (accumulated base : ℤ) (exponent : ℕ) :
    powerFrom accumulated base exponent = accumulated * base ^ exponent := by
  induction exponent using Nat.strong_induction_on generalizing accumulated base with
  | _ exponent ih =>
    have hkept := round_mul_pow accumulated base exponent
    unfold powerFrom
    by_cases hzero : exponent = 0
    · simp [hzero]
    by_cases hone : exponent = 1
    · -- the last round does not square the base: nothing is left to be multiplied
      simp [hone]
    · simp only [if_neg hzero, if_neg hone]
      rw [ih (exponent / 2) (by omega), hkept]

/-- **Repeated squaring gives the power.** -/
theorem power_eq (base : ℤ) (exponent : ℕ) : power base exponent = base ^ exponent := by
  rw [power, powerFrom_eq, one_mul]

example : power (-3) 5 = -243 := by decide +kernel

/-! ## Powers of values -/

namespace Value

variable {base exponent : ℤ} {span : Span}

/-- A power with an exponent that is not negative. -/
theorem raised_integer (h : 0 ≤ exponent) :
    raised (integer base) (integer exponent) span = .ok (integer (base ^ exponent.toNat)) := by
  simp only [raised, if_neg (not_lt.2 h), power_eq]

/-- Powers fail with the error of a negative exponent only if there is one, and then always. -/
theorem raised_eq_negativeExponent_iff {a b : Value} {text : String} {place : Span} :
    raised a b span = .error (.negativeExponent text place) ↔
      ∃ base exponent : ℤ, a = integer base ∧ b = integer exponent ∧ exponent < 0 ∧
        text = Integer.text exponent ∧ place = span := by
  constructor
  · intro h
    unfold raised at h
    split at h
    · rename_i base exponent
      by_cases hnegative : exponent < 0
      · rw [if_pos hnegative] at h
        cases h
        exact ⟨base, exponent, rfl, rfl, hnegative, rfl, rfl⟩
      · rw [if_neg hnegative] at h
        cases h
    · cases h
    · cases h
  · rintro ⟨base, exponent, rfl, rfl, hnegative, rfl, rfl⟩
    exact if_pos hnegative

/-! ## Powers in running programs -/

section Runs

variable {host : Host} {l r : Expr} {ty : Slot Ty} {s s₁ s₂ : State} {i j : ℤ}

/-- What a power of integers comes to. -/
theorem evaluate_pow (hl : l.evaluate host s = .done (integer i) s₁)
    (hr : r.evaluate host s₁ = .done (integer j) s₂) (hj : 0 ≤ j) :
    (Expr.binary .pow l r span ty).evaluate host s = .done (integer (i ^ j.toNat)) s₂ := by
  rw [Expr.evaluate_binary (by decide) hl hr, BinaryOp.apply, raised_integer hj]
  rfl

/-- What a sum of integers comes to. -/
theorem evaluate_add (hl : l.evaluate host s = .done (integer i) s₁)
    (hr : r.evaluate host s₁ = .done (integer j) s₂) :
    (Expr.binary .add l r span ty).evaluate host s = .done (integer (i + j)) s₂ := by
  rw [Expr.evaluate_binary (by decide) hl hr]
  rfl

/-- What a product of integers comes to. -/
theorem evaluate_mul (hl : l.evaluate host s = .done (integer i) s₁)
    (hr : r.evaluate host s₁ = .done (integer j) s₂) :
    (Expr.binary .mul l r span ty).evaluate host s = .done (integer (i * j)) s₂ := by
  rw [Expr.evaluate_binary (by decide) hl hr]
  rfl

/-- An expression of powers fails with the error of a negative exponent only if there is one. -/
theorem evaluate_pow_eq_negativeExponent_iff {a b : Value} {text : String} {place : Span}
    {writes : List String} (hl : l.evaluate host s = .done a s₁)
    (hr : r.evaluate host s₁ = .done b s₂) :
    (Expr.binary .pow l r span ty).evaluate host s = .failed (.negativeExponent text place) writes ↔
      ∃ base exponent : ℤ, a = integer base ∧ b = integer exponent ∧ exponent < 0 ∧
        text = Integer.text exponent ∧ place = span ∧ writes = s₂.writes := by
  have hlift : Eval.lift (raised a b span) s₂ = .failed (.negativeExponent text place) writes ↔
      raised a b span = .error (.negativeExponent text place) ∧ writes = s₂.writes := by
    cases raised a b span with
    | ok v => simp [Eval.lift, pure]
    | error e => simp [Eval.lift, Eval.fail, eq_comm]
  rw [Expr.evaluate_binary (by decide) hl hr, BinaryOp.apply, hlift, raised_eq_negativeExponent_iff]
  constructor
  · rintro ⟨⟨base, exponent, ha, hb, hnegative, htext, hplace⟩, hwrites⟩
    exact ⟨base, exponent, ha, hb, hnegative, htext, hplace, hwrites⟩
  · rintro ⟨base, exponent, ha, hb, hnegative, htext, hplace, hwrites⟩
    exact ⟨⟨base, exponent, ha, hb, hnegative, htext, hplace⟩, hwrites⟩

/-! ### The laws of powers

The operands change nothing, so that it does not matter how often they are evaluated. -/

variable {x m n : Expr}

/-- A power of a sum is a product of powers. -/
theorem evaluate_pow_add (hx : x.evaluate host s = .done (integer base) s)
    (hm : m.evaluate host s = .done (integer i) s) (hn : n.evaluate host s = .done (integer j) s)
    (hi : 0 ≤ i) (hj : 0 ≤ j) :
    (Build.binary .pow x (Build.binary .add m n)).evaluate host s =
        (Build.binary .mul (Build.binary .pow x m) (Build.binary .pow x n)).evaluate host s ∧
      (Build.binary .pow x (Build.binary .add m n)).evaluate host s =
        .done (integer (base ^ (i + j).toNat)) s := by
  have hpow : base ^ i.toNat * base ^ j.toNat = base ^ (i + j).toNat := by
    rw [Int.toNat_add hi hj, pow_add]
  have hsum : (Build.binary .pow x (Build.binary .add m n)).evaluate host s =
      .done (integer (base ^ (i + j).toNat)) s :=
    evaluate_pow hx (evaluate_add hm hn) (add_nonneg hi hj)
  have hproduct :
      (Build.binary .mul (Build.binary .pow x m) (Build.binary .pow x n)).evaluate host s =
        .done (integer (base ^ i.toNat * base ^ j.toNat)) s :=
    evaluate_mul (evaluate_pow hx hm hi) (evaluate_pow hx hn hj)
  rw [hsum, hproduct, hpow]
  exact ⟨rfl, rfl⟩

/-- A power of a power is a power of a product. -/
theorem evaluate_pow_mul (hx : x.evaluate host s = .done (integer base) s)
    (hm : m.evaluate host s = .done (integer i) s) (hn : n.evaluate host s = .done (integer j) s)
    (hi : 0 ≤ i) (hj : 0 ≤ j) :
    (Build.binary .pow (Build.binary .pow x m) n).evaluate host s =
        (Build.binary .pow x (Build.binary .mul m n)).evaluate host s ∧
      (Build.binary .pow (Build.binary .pow x m) n).evaluate host s =
        .done (integer (base ^ (i * j).toNat)) s := by
  have hpow : (base ^ i.toNat) ^ j.toNat = base ^ (i * j).toNat := by
    rw [Int.toNat_mul hi hj, pow_mul]
  have htwice : (Build.binary .pow (Build.binary .pow x m) n).evaluate host s =
      .done (integer ((base ^ i.toNat) ^ j.toNat)) s :=
    evaluate_pow (evaluate_pow hx hm hi) hn hj
  have honce : (Build.binary .pow x (Build.binary .mul m n)).evaluate host s =
      .done (integer (base ^ (i * j).toNat)) s :=
    evaluate_pow hx (evaluate_mul hm hn) (mul_nonneg hi hj)
  rw [htwice, honce, hpow]
  exact ⟨rfl, rfl⟩

end Runs

/-- **Powers are exact.**  Repeated squaring gives the power for every integer and every natural
exponent, and one for the exponent zero, also if the base is zero.  So `^` comes to the power of the
values of any two operands that are integers, the second one not negative; it fails with the error
of a negative exponent exactly if both are integers and the second one is negative.  In every state
in which three operands have integers for values and change nothing, the second and the third value
not being negative, `x ^ (m + n)` comes to what `(x ^ m) * (x ^ n)` comes to, and `(x ^ m) ^ n` to
what `x ^ (m * n)` comes to. -/
theorem powers_exact :
    (∀ (base : ℤ) (exponent : ℕ), power base exponent = base ^ exponent) ∧
    (∀ base : ℤ, power base 0 = 1) ∧
    (∀ (host : Host) (l r : Expr) (span : Span) (ty : Slot Ty) (s s₁ s₂ : State) (a b : Value),
      l.evaluate host s = .done a s₁ → r.evaluate host s₁ = .done b s₂ →
      (∀ base exponent : ℤ, a = integer base → b = integer exponent → 0 ≤ exponent →
        (Expr.binary .pow l r span ty).evaluate host s =
          .done (integer (base ^ exponent.toNat)) s₂) ∧
      ∀ (text : String) (place : Span) (writes : List String),
        (Expr.binary .pow l r span ty).evaluate host s =
            .failed (.negativeExponent text place) writes ↔
          ∃ base exponent : ℤ, a = integer base ∧ b = integer exponent ∧ exponent < 0 ∧
            text = Integer.text exponent ∧ place = span ∧ writes = s₂.writes) ∧
    ∀ (host : Host) (x m n : Expr) (s : State) (base i j : ℤ),
      x.evaluate host s = .done (integer base) s → m.evaluate host s = .done (integer i) s →
      n.evaluate host s = .done (integer j) s → 0 ≤ i → 0 ≤ j →
      ((Build.binary .pow x (Build.binary .add m n)).evaluate host s =
          (Build.binary .mul (Build.binary .pow x m) (Build.binary .pow x n)).evaluate host s ∧
        (Build.binary .pow x (Build.binary .add m n)).evaluate host s =
          .done (integer (base ^ (i + j).toNat)) s) ∧
      (Build.binary .pow (Build.binary .pow x m) n).evaluate host s =
          (Build.binary .pow x (Build.binary .mul m n)).evaluate host s ∧
        (Build.binary .pow (Build.binary .pow x m) n).evaluate host s =
          .done (integer (base ^ (i * j).toNat)) s := by
  refine ⟨power_eq, fun base => by rw [power_eq, pow_zero], ?operands, ?laws⟩
  case operands =>
    intro host l r span ty s s₁ s₂ a b hl hr
    constructor
    · rintro base exponent rfl rfl hexponent
      exact evaluate_pow hl hr hexponent
    · intro text place writes
      exact evaluate_pow_eq_negativeExponent_iff hl hr
  case laws =>
    intro host x m n s base i j hx hm hn hi hj
    exact ⟨evaluate_pow_add hx hm hn hi hj, evaluate_pow_mul hx hm hn hi hj⟩

/-- Two to the power three plus four is the product of two powers, and minus one is no exponent. -/
theorem powers_exact_seventh :
    (Build.binary .pow (Build.literal (.integer 2))
        (Build.binary .add (Build.literal (.integer 3)) (Build.literal (.integer 4)))).evaluate
        ⟨.unbounded, 0, fun _ _ => default⟩ ⟨.initial, []⟩ =
      (Build.binary .mul
        (Build.binary .pow (Build.literal (.integer 2)) (Build.literal (.integer 3)))
        (Build.binary .pow (Build.literal (.integer 2)) (Build.literal (.integer 4)))).evaluate
        ⟨.unbounded, 0, fun _ _ => default⟩ ⟨.initial, []⟩ ∧
    (Build.binary .pow (Build.literal (.integer 2))
        (Build.binary .add (Build.literal (.integer 3)) (Build.literal (.integer 4)))).evaluate
        ⟨.unbounded, 0, fun _ _ => default⟩ ⟨.initial, []⟩ = .done (integer 128) ⟨.initial, []⟩ ∧
    (Build.binary .pow (Build.literal (.integer 2)) (Build.literal (.integer (-1)))).evaluate
        ⟨.unbounded, 0, fun _ _ => default⟩ ⟨.initial, []⟩ =
      .failed (.negativeExponent "-1" .nowhere) [] := by
  obtain ⟨-, -, hoperands, hlaws⟩ := powers_exact
  have hseventh := (hlaws ⟨.unbounded, 0, fun _ _ => default⟩ (Build.literal (.integer 2))
    (Build.literal (.integer 3)) (Build.literal (.integer 4)) ⟨.initial, []⟩ 2 3 4 rfl rfl rfl
    (by decide) (by decide)).1
  have hrefused := (hoperands ⟨.unbounded, 0, fun _ _ => default⟩ (Build.literal (.integer 2))
    (Build.literal (.integer (-1))) .nowhere none ⟨.initial, []⟩ ⟨.initial, []⟩ ⟨.initial, []⟩
    (integer 2) (integer (-1)) rfl rfl).2 "-1" .nowhere []
  exact ⟨hseventh.1, hseventh.2,
    hrefused.2 ⟨2, -1, rfl, rfl, by decide, by decide, rfl, rfl⟩⟩

end Value

end ImpTree
