import ImpTree.Proofs.Decimals.Arithmetic
import ImpTree.Proofs.Run.Steps
import ImpTree.Tree.Build

/-!
# Equality and order of values

Two values are equal if they stand for the same: decimals for numbers, lists for what their elements
stand for.  Two values have an order if they are of one orderable kind, and the orders of the kinds
are linear.  Both relations agree, and so do the operators that ask for them.

* `Value.Meaning`, `Value.meaning` — what a value stands for.
* `Value.same_iff_meaning` — values are equal if they stand for the same.
* `Value.Compares` — the comparisons of values of one kind.
* `Expr.evaluate_comparing` — what the comparing operators come to.
* `Value.orderings_agree` — **equality and order agree.**
-/

namespace ImpTree

/-- Decimals compare like numbers, in a line. -/
instance : Std.TransCmp Decimal.order := by
  have horder : Decimal.order = compareOn Decimal.size := by
    funext a b
    rw [Decimal.order_eq_cmp, cmp_eq_compare]
    rfl
  rw [horder]
  infer_instance

namespace Value

/-! ## Equality -/

/-- What a value stands for: a decimal stands for its number, whatever the scale is. -/
inductive Meaning where
  | nil
  | boolean (b : Bool)
  | integer (n : Int)
  | decimal (x : ℚ)
  | character (c : Char)
  | string (s : String)
  | list (items : List Meaning)

mutual

/-- What a value stands for. -/
def meaning : Value → Meaning
  | nil => .nil
  | boolean b => .boolean b
  | integer n => .integer n
  | decimal d => .decimal d.size
  | character c => .character c
  | string s => .string s
  | list items => .list (meanings items)

/-- What values stand for, one after the other. -/
def meanings : List Value → List Meaning
  | [] => []
  | v :: rest => meaning v :: meanings rest

end

mutual

/-- **Values are equal if they stand for the same**, by induction on the first one. -/
theorem same_iff_meaning : ∀ a b : Value, a.same b = true ↔ a.meaning = b.meaning
  | nil, b => by cases b <;> simp [same, meaning]
  | boolean _, b => by cases b <;> simp [same, meaning]
  | integer _, b => by cases b <;> simp [same, meaning]
  | decimal d, b => by cases b <;> simp [same, meaning, d.same_iff]
  | character _, b => by cases b <;> simp [same, meaning]
  | string _, b => by cases b <;> simp [same, meaning]
  | list as, b => by
    cases b with
    | list bs => rw [same, sameAll_iff_meanings as bs, meaning, meaning, Meaning.list.injEq]
    | _ => simp [same, meaning]

/-- Lists are equal if their elements stand for the same. -/
theorem sameAll_iff_meanings :
    ∀ as bs : List Value, sameAll as bs = true ↔ meanings as = meanings bs
  | [], bs => by cases bs <;> simp [sameAll, meanings]
  | a :: as, bs => by
    cases bs with
    | nil => simp [sameAll, meanings]
    | cons b bs =>
      rw [sameAll, Bool.and_eq_true, same_iff_meaning a b, sameAll_iff_meanings as bs, meanings,
        meanings, List.cons.injEq]

end

/-- Equality of values is an equivalence. -/
theorem equivalence_same : Equivalence fun a b : Value => a.same b = true where
  refl a := (same_iff_meaning a a).2 rfl
  symm h := (same_iff_meaning _ _).2 ((same_iff_meaning _ _).1 h).symm
  trans h h' :=
    (same_iff_meaning _ _).2 (((same_iff_meaning _ _).1 h).trans ((same_iff_meaning _ _).1 h'))

/-! ## Order -/

/-- The kinds of values that have an order. -/
def orderableKinds : List String := ["Boolean", "Integer", "Decimal", "Character", "String"]

/-- Two values of one kind that has an order, and how they compare. -/
inductive Compares : Value → Value → Ordering → Prop where
  | boolean {x y o} (h : compare x y = o) : Compares (boolean x) (boolean y) o
  | integer {x y o} (h : compare x y = o) : Compares (integer x) (integer y) o
  | decimal {x y o} (h : Decimal.order x y = o) : Compares (decimal x) (decimal y) o
  | character {x y o} (h : compare x y = o) : Compares (character x) (character y) o
  | string {x y o} (h : compare x y = o) : Compares (string x) (string y) o

variable {a b c : Value} {o : Ordering}

/-- The order is the comparison of the one kind that both values are of. -/
theorem order?_eq_some_iff : a.order? b = some o ↔ Compares a b o := by
  constructor
  · intro h
    rw [order?.eq_def] at h
    split at h
    case h_1 => exact .boolean (Option.some.inj h)
    case h_2 => exact .integer (Option.some.inj h)
    case h_3 => exact .decimal (Option.some.inj h)
    case h_4 => exact .character (Option.some.inj h)
    case h_5 => exact .string (Option.some.inj h)
    case h_6 => cases h
  · rintro (h | h | h | h | h) <;> exact congrArg some h

/-- Values have an order if they are of one kind and the kind has one. -/
theorem isSome_order?_iff :
    (a.order? b).isSome = true ↔ a.kind = b.kind ∧ a.kind ∈ orderableKinds := by
  cases a <;> cases b <;> simp [order?, kind, orderableKinds]

/-- The order the other way round. -/
theorem order?_swap (a b : Value) : b.order? a = (a.order? b).map Ordering.swap := by
  cases h : a.order? b with
  | none =>
    have hnone : ¬(b.order? a).isSome = true := by
      rw [isSome_order?_iff]
      rintro ⟨hkind, horderable⟩
      have hsome := isSome_order?_iff.2 ⟨hkind.symm, hkind ▸ horderable⟩
      rw [h] at hsome
      cases hsome
    simpa using hnone
  | some o =>
    rw [Option.map_some, order?_eq_some_iff]
    cases order?_eq_some_iff.1 h with
    | boolean h => exact .boolean (h ▸ Std.OrientedCmp.eq_swap)
    | integer h => exact .integer (h ▸ Std.OrientedCmp.eq_swap)
    | decimal h => exact .decimal (h ▸ Std.OrientedCmp.eq_swap)
    | character h => exact .character (h ▸ Std.OrientedCmp.eq_swap)
    | string h => exact .string (h ▸ Std.OrientedCmp.eq_swap)

/-- What is before something that is before something else is before that, too. -/
theorem order?_trans (h : a.order? b = some .lt) (h' : b.order? c = some .lt) :
    a.order? c = some .lt := by
  rw [order?_eq_some_iff] at h h' ⊢
  cases h with
  | boolean h => cases h' with | boolean h' => exact .boolean (Std.TransCmp.lt_trans h h')
  | integer h => cases h' with | integer h' => exact .integer (Std.TransCmp.lt_trans h h')
  | decimal h => cases h' with | decimal h' => exact .decimal (Std.TransCmp.lt_trans h h')
  | character h => cases h' with | character h' => exact .character (Std.TransCmp.lt_trans h h')
  | string h => cases h' with | string h' => exact .string (Std.TransCmp.lt_trans h h')

/-- Values that have an order are equal if neither is before the other. -/
theorem same_eq_of_order? (h : a.order? b = some o) : a.same b = (o == .eq) := by
  rw [Bool.eq_iff_iff, beq_iff_eq]
  cases order?_eq_some_iff.1 h with
  | boolean h | integer h | character h | string h =>
    rw [same, beq_iff_eq, ← h, Std.LawfulEqOrd.compare_eq_iff_eq]
  | decimal h => rw [same, Decimal.same, beq_iff_eq, h]

end Value

/-! ## Operators -/

/-- The operator that asks for an order. -/
def BinaryOp.comparing : Ordering → BinaryOp
  | .lt => lt
  | .eq => eq
  | .gt => gt

section Operators

variable {a b : Value} {o : Ordering} {span : Span} {host : Host} {l r : Expr} {op : BinaryOp}
  {ty : Slot Ty} {s s₁ s₂ : State}

theorem BinaryOp.mem_comparisons_iff : op ∈ [lt, eq, gt] ↔ ∃ o, op = comparing o := by
  constructor
  · intro h
    simp only [List.mem_cons, List.not_mem_nil, or_false] at h
    rcases h with rfl | rfl | rfl
    · exact ⟨.lt, rfl⟩
    · exact ⟨.eq, rfl⟩
    · exact ⟨.gt, rfl⟩
  · rintro ⟨_ | _ | _, rfl⟩ <;> decide

/-- An operator that asks for an order gives true if it asks for the right one. -/
theorem BinaryOp.apply_comparing (h : a.order? b = some o) (asked : Ordering) :
    (comparing asked).apply a b span = .ok (.boolean (o == asked)) := by
  cases asked with
  | lt =>
    rw [comparing, apply, Value.ordering, h]
    rfl
  | eq => rw [comparing, apply, Value.same_eq_of_order? h]
  | gt =>
    rw [comparing, apply, Value.ordering, h]
    rfl

/-- What an operator that asks for an order comes to. -/
theorem Expr.evaluate_comparing (hl : l.evaluate host s = .done a s₁)
    (hr : r.evaluate host s₁ = .done b s₂) (h : a.order? b = some o) (asked : Ordering) :
    (Expr.binary (.comparing asked) l r span ty).evaluate host s =
      .done (.boolean (o == asked)) s₂ := by
  have hop : ¬(BinaryOp.comparing asked = .and ∨ BinaryOp.comparing asked = .or) := by
    cases asked <;> decide
  rw [evaluate_binary hop hl hr, BinaryOp.apply_comparing h]
  rfl

end Operators

namespace Value

/-- **Equality and order agree.**  Equality is an equivalence of all values, lists and decimals of
any scale included.  Two values have an order if and only if they are of one kind and that kind has
an order; where they have one, there is exactly one, it is "equal" if and only if the values are
equal, it is reversed the other way round, and what is before something is before all that comes
after.  So of the operators `<`, `==` and `>` exactly one gives true for the values of two operands
of one orderable kind, and the other ones give false; and for the values of any two operands, `!=`
gives the opposite of what `==` gives. -/
theorem orderings_agree :
    (Equivalence fun a b : Value => a.same b = true) ∧
    (∀ a b : Value,
      ((a.order? b).isSome = true ↔ a.kind = b.kind ∧ a.kind ∈ orderableKinds) ∧
      ((a.order? b).isSome = true →
        (∃! o, a.order? b = some o) ∧ (a.order? b = some .eq ↔ a.same b = true)) ∧
      b.order? a = (a.order? b).map Ordering.swap) ∧
    (∀ a b c : Value, a.order? b = some .lt → b.order? c = some .lt → a.order? c = some .lt) ∧
    ∀ (host : Host) (l r : Expr) (span : Span) (ty : Slot Ty) (s s₁ s₂ : State) (a b : Value),
      l.evaluate host s = .done a s₁ → r.evaluate host s₁ = .done b s₂ →
      (a.kind = b.kind → a.kind ∈ orderableKinds →
        (∃! op, op ∈ [BinaryOp.lt, .eq, .gt] ∧
          (Expr.binary op l r span ty).evaluate host s = .done (.boolean true) s₂) ∧
        ∀ op ∈ [BinaryOp.lt, .eq, .gt], ∃ holds,
          (Expr.binary op l r span ty).evaluate host s = .done (.boolean holds) s₂) ∧
      ∃ holds, (Expr.binary .eq l r span ty).evaluate host s = .done (.boolean holds) s₂ ∧
        (Expr.binary .ne l r span ty).evaluate host s = .done (.boolean !holds) s₂ := by
  refine ⟨equivalence_same, fun a b => ⟨isSome_order?_iff, fun h => ?one, order?_swap a b⟩,
    fun a b c => order?_trans, fun host l r span ty s s₁ s₂ a b hl hr =>
      ⟨fun hkind horderable => ?operators, ?opposite⟩⟩
  case one =>
    obtain ⟨o, ho⟩ := Option.isSome_iff_exists.1 h
    refine ⟨⟨o, ho, fun o' ho' => Option.some.inj (ho'.symm.trans ho)⟩, ?_⟩
    rw [same_eq_of_order? ho, ho, Option.some.injEq, beq_iff_eq]
  case operators =>
    obtain ⟨o, ho⟩ := Option.isSome_iff_exists.1 (isSome_order?_iff.2 ⟨hkind, horderable⟩)
    have hasked : ∀ asked, (Expr.binary (.comparing asked) l r span ty).evaluate host s =
        .done (.boolean (o == asked)) s₂ := Expr.evaluate_comparing hl hr ho
    refine ⟨⟨.comparing o, ⟨BinaryOp.mem_comparisons_iff.2 ⟨o, rfl⟩, ?_⟩, ?_⟩, fun op hop => ?_⟩
    · rw [hasked, beq_self_eq_true]
    · rintro op ⟨hop, htrue⟩
      obtain ⟨asked, rfl⟩ := BinaryOp.mem_comparisons_iff.1 hop
      rw [hasked] at htrue
      simp only [Outcome.done.injEq, boolean.injEq, beq_iff_eq, and_true] at htrue
      rw [htrue]
    · obtain ⟨asked, rfl⟩ := BinaryOp.mem_comparisons_iff.1 hop
      exact ⟨_, hasked asked⟩
  case opposite =>
    refine ⟨a.same b, ?_, ?_⟩
    · rw [Expr.evaluate_binary (by decide) hl hr]
      rfl
    · rw [Expr.evaluate_binary (by decide) hl hr]
      rfl

/-- One is less than one and five thousandths, which is less than one and a tenth, each at a scale
of its own; and the first of these comparisons is made by operators. -/
theorem orderings_agree_rescaled :
    (decimal ⟨10, 1⟩).order? (decimal ⟨1005, 3⟩) = some .lt ∧
      (decimal ⟨1005, 3⟩).order? (decimal ⟨110, 2⟩) = some .lt ∧
      (decimal ⟨10, 1⟩).order? (decimal ⟨110, 2⟩) = some .lt ∧
      ∃! op, op ∈ [BinaryOp.lt, .eq, .gt] ∧
        (Build.binary op (Build.literal (.decimal ⟨10, 1⟩))
            (Build.literal (.decimal ⟨1005, 3⟩))).evaluate ⟨.unbounded, 0, fun _ _ => default⟩
            ⟨.initial, []⟩ = .done (.boolean true) ⟨.initial, []⟩ := by
  have hfirst : (decimal ⟨10, 1⟩).order? (decimal ⟨1005, 3⟩) = some .lt := by decide
  have hsecond : (decimal ⟨1005, 3⟩).order? (decimal ⟨110, 2⟩) = some .lt := by decide
  obtain ⟨-, -, htrans, hoperators⟩ := orderings_agree
  exact ⟨hfirst, hsecond, htrans _ _ _ hfirst hsecond,
    ((hoperators _ _ _ _ _ _ _ _ (decimal ⟨10, 1⟩) (decimal ⟨1005, 3⟩) rfl rfl).1 rfl
      (by decide)).1⟩

end Value

end ImpTree
