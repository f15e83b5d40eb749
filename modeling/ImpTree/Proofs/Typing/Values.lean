import ImpTree.Analysis.Expr
import ImpTree.Proofs.Run.Steps
import Mathlib

/-!
# Values of a type

Which values belong to a static type, and what operators and indices do with values of the types
that the checker demands.  A value may be missing where the proposition `missing` says so: then
`null` stands in for a value of any type, also inside lists.

* `Value.Inhabits`, `Value.Fits` — the values of a type, without and with a missing one.
* `Value.Fits.of_accepts` — **flows are sound**: a value of a type fits every type that accepts it.
* `Value.Yields` — what an operation on fitting values may come to.
* `BinaryOp.apply_of_fits` — an operator on fitting operands gives a value that fits its result
  type, or fails for a reason that no type excludes, or meets a missing value, or compares values
  of different kinds.
-/

namespace ImpTree

/-! ## Inhabitants -/

/-- The value belongs to the type.  The elements of a list may be missing if `missing` holds. -/
def Value.Inhabits (missing : Prop) : Ty → Value → Prop
  | .nil, v => v = .nil
  | .boolean, v => ∃ b, v = .boolean b
  | .integer, v => ∃ n, v = .integer n
  | .decimal, v => ∃ d, v = .decimal d
  | .character, v => ∃ c, v = .character c
  | .string, v => ∃ s, v = .string s
  | .any, _ => True
  | .comparable, v =>
    (∃ n, v = .integer n) ∨ (∃ d, v = .decimal d) ∨ (∃ c, v = .character c) ∨ ∃ s, v = .string s
  | .list element, v =>
    ∃ items, v = .list items ∧
      ∀ item ∈ items, (missing ∧ item = .nil) ∨ item.Inhabits missing element

/-- The value belongs to the type, or is missing where that may be. -/
def Value.Fits (missing : Prop) (ty : Ty) (v : Value) : Prop :=
  (missing ∧ v = .nil) ∨ v.Inhabits missing ty

variable {missing : Prop} {a b v : Value} {left right ty : Ty} {span place : Span}

theorem Value.fits_nil (h : missing) : Value.nil.Fits missing ty := .inl ⟨h, rfl⟩

theorem Value.fits_any : v.Fits missing .any := .inr trivial

theorem Value.fits_boolean (b : Bool) : (Value.boolean b).Fits missing .boolean := .inr ⟨b, rfl⟩

theorem Value.fits_integer (n : Int) : (Value.integer n).Fits missing .integer := .inr ⟨n, rfl⟩

theorem Value.fits_decimal (d : Decimal) : (Value.decimal d).Fits missing .decimal := .inr ⟨d, rfl⟩

theorem Value.fits_string (s : String) : (Value.string s).Fits missing .string := .inr ⟨s, rfl⟩

/-- A list fits a list type if its elements fit the element type. -/
theorem Value.fits_list {items : List Value} (h : ∀ item ∈ items, item.Fits missing ty) :
    (Value.list items).Fits missing (.list ty) :=
  .inr ⟨items, rfl, h⟩

/-- What fits a list type is missing or a list whose elements fit the element type. -/
theorem Value.Fits.list_inv (h : v.Fits missing (.list ty)) :
    (missing ∧ v = .nil) ∨ ∃ items, v = .list items ∧ ∀ item ∈ items, item.Fits missing ty := h

/-- `null` stands in for a value of another type only if values may be missing. -/
theorem Value.Fits.missing_of_nil (h : Value.nil.Fits missing ty) (hnil : ty ≠ .nil)
    (hany : ty ≠ .any) : missing := by
  rcases h with ⟨hm, -⟩ | h
  · exact hm
  · cases ty with
    | nil => exact absurd rfl hnil
    | any => exact absurd rfl hany
    | comparable => rcases h with ⟨x, h⟩ | ⟨x, h⟩ | ⟨x, h⟩ | ⟨x, h⟩ <;> cases h
    | list element => obtain ⟨items, h, -⟩ := h; cases h
    | _ => obtain ⟨x, h⟩ := h; cases h

/-- A constant fits the type that the checker gives it. -/
theorem Literal.value_fits {literal : Literal} (h : literal.ty span = .ok ty) :
    literal.value.Fits missing ty := by
  refine .inr ?_
  cases literal with
  | nil => cases h; rfl
  | boolean b => cases h; exact ⟨b, rfl⟩
  | character c => cases h; exact ⟨c, rfl⟩
  | string s => cases h; exact ⟨s, rfl⟩
  | integer n =>
    rw [Literal.ty] at h
    split at h
    · cases h; exact ⟨n, rfl⟩
    · cases h
  | decimal d =>
    rw [Literal.ty] at h
    split at h
    · cases h
    · cases h; exact ⟨d, rfl⟩

/-! ## Flows -/

/-- The three ways in which a value of one type may be stored where another is expected. -/
theorem Ty.accepts_iff {target source : Ty} :
    target.accepts source = true ↔
      target = source ∨ target = .any ∨ (target = .comparable ∧ source.isComparable = true) := by
  cases target <;> simp [Ty.accepts]

/-- The values of an orderable type are comparable. -/
theorem Value.Inhabits.comparable {source : Ty} (hs : source.isComparable = true)
    (h : v.Inhabits missing source) : v.Inhabits missing .comparable := by
  cases source with
  | integer => exact .inl h
  | decimal => exact .inr (.inl h)
  | character => exact .inr (.inr (.inl h))
  | string => exact .inr (.inr (.inr h))
  | _ => cases hs

/-- **Flows are sound.**  What fits a type fits every type that accepts it. -/
theorem Value.Fits.of_accepts {target source : Ty} (hacc : target.accepts source = true)
    (h : v.Fits missing source) : v.Fits missing target := by
  rcases h with hnil | h
  · exact .inl hnil
  · refine .inr ?_
    rcases Ty.accepts_iff.1 hacc with rfl | rfl | ⟨rfl, hs⟩
    · exact h
    · trivial
    · exact h.comparable hs

/-! ## Mismatches -/

/-- The error says that a type, or a kind of value, stands where another is needed. -/
def Error.IsMismatch (e : Error) : Prop :=
  ∃ expected got span, e = .typeMismatch expected got span

theorem Value.isMismatch_mismatch (expected : String) (got : Value) (span : Span) :
    (Value.mismatch expected got span).IsMismatch := ⟨_, _, _, rfl⟩

/-- A mismatch is reported under the analysis phase. -/
theorem Error.IsMismatch.phase {e : Error} (h : e.IsMismatch) : e.phase = .analysis := by
  obtain ⟨expected, got, span, rfl⟩ := h
  rfl

/-- What an operation on values comes to: a value that fits, or an error of the runtime phase, or a
mismatch that has the reason and needs missing values. -/
def Value.Yields (missing : Prop) (ty : Ty) (reason : Prop) (x : Except Error Value) : Prop :=
  (∃ v, x = .ok v ∧ v.Fits missing ty) ∨
    ∃ e, x = .error e ∧ (e.phase = .runtime ∨ missing ∧ e.IsMismatch ∧ reason)

namespace Value.Yields

variable {reason reason' : Prop} {x : Except Error Value} {e : Error}

theorem of_ok (hx : x = .ok v) (hv : v.Fits missing ty) : Yields missing ty reason x :=
  .inl ⟨v, hx, hv⟩

theorem of_runtime (hx : x = .error e) (he : e.phase = .runtime) : Yields missing ty reason x :=
  .inr ⟨e, hx, .inl he⟩

theorem of_mismatch (hx : x = .error e) (hm : missing) (he : e.IsMismatch) (hreason : reason) :
    Yields missing ty reason x :=
  .inr ⟨e, hx, .inr ⟨hm, he, hreason⟩⟩

/-- A weaker reason will do. -/
theorem mono (h : Yields missing ty reason x) (hle : reason → reason') :
    Yields missing ty reason' x := by
  rcases h with ⟨v, hx, hv⟩ | ⟨e, hx, he | ⟨hm, he, hreason⟩⟩
  · exact of_ok hx hv
  · exact of_runtime hx he
  · exact of_mismatch hx hm he (hle hreason)

end Value.Yields

/-! ## Elements of lists -/

section Elements

variable {element : Ty} {index new : Value} {e : Error}

/-- Reading an element: the list and the index are there, or one of them is missing. -/
theorem Value.elementAt_of_fits (hv : v.Fits missing (.list element))
    (hi : index.Fits missing .integer) :
    Value.Yields missing element (v = .nil ∨ index = .nil) (v.elementAt index span) := by
  rcases hv.list_inv with ⟨hm, rfl⟩ | ⟨items, rfl, hitems⟩
  · exact .of_mismatch rfl hm (Value.isMismatch_mismatch ..) (.inl rfl)
  · rcases hi with ⟨hm, rfl⟩ | ⟨n, rfl⟩
    · exact .of_mismatch rfl hm (Value.isMismatch_mismatch ..) (.inr rfl)
    · by_cases hn : 0 ≤ n ∧ n < items.length
      · have hlt : n.toNat < items.length := by omega
        exact .of_ok (Value.elementAt_list.trans (if_pos hn)) (hitems _ (Value.getD_mem hlt))
      · exact .of_runtime (Value.elementAt_list.trans (if_neg hn)) rfl

/-- Writing an element: the same alternatives as for reading. -/
theorem Value.withElementAt_of_fits (hv : v.Fits missing (.list element))
    (hi : index.Fits missing .integer) (hnew : new.Fits missing element) :
    Value.Yields missing (.list element) (v = .nil ∨ index = .nil)
      (v.withElementAt index new span) := by
  rcases hv.list_inv with ⟨hm, rfl⟩ | ⟨items, rfl, hitems⟩
  · exact .of_mismatch rfl hm (Value.isMismatch_mismatch ..) (.inl rfl)
  · rcases hi with ⟨hm, rfl⟩ | ⟨n, rfl⟩
    · exact .of_mismatch rfl hm (Value.isMismatch_mismatch ..) (.inr rfl)
    · by_cases hn : 0 ≤ n ∧ n < items.length
      · refine .of_ok (Value.withElementAt_list.trans (if_pos hn)) (Value.fits_list ?_)
        intro item hitem
        rcases List.mem_or_eq_of_mem_set hitem with hold | rfl
        · exact hitems item hold
        · exact hnew
      · exact .of_runtime (Value.withElementAt_list.trans (if_neg hn)) rfl

/-- Without a list or without an index, reading is a mismatch. -/
theorem Value.isMismatch_of_elementAt (hnil : v = .nil ∨ index = .nil)
    (h : v.elementAt index span = .error e) : e.IsMismatch := by
  rcases hnil with rfl | rfl
  · cases h
    exact Value.isMismatch_mismatch ..
  · cases v <;> cases h <;> exact Value.isMismatch_mismatch ..

/-- Without a list or without an index, writing is a mismatch. -/
theorem Value.isMismatch_of_withElementAt (hnil : v = .nil ∨ index = .nil)
    (h : v.withElementAt index new span = .error e) : e.IsMismatch := by
  rcases hnil with rfl | rfl
  · cases h
    exact Value.isMismatch_mismatch ..
  · cases v <;> cases h <;> exact Value.isMismatch_mismatch ..

end Elements

/-! ## Operators -/

/-! ### Requirements on operand types -/

/-- Two steps that may fail end well only if both do. -/
theorem Except.bind_ok_inv {α β : Type} {first : Except Error α} {next : α → Except Error β}
    {result : β} (h : first >>= next = .ok result) :
    ∃ a, first = .ok a ∧ next a = .ok result := by
  cases first with
  | ok a => exact ⟨a, rfl, h⟩
  | error e => cases h

/-- Arithmetic is typed by two operands of one numeric type. -/
theorem Ty.arithmetic_eq_ok (h : left.arithmetic right span = .ok ty) :
    (ty = .integer ∨ ty = .decimal) ∧ left = ty ∧ right = ty := by
  rw [Ty.arithmetic] at h
  split at h
  · cases h
  · rename_i hnum
    split at h
    · cases h
    · rename_i hsame
      cases h
      refine ⟨?_, rfl, Decidable.not_not.1 hsame⟩
      cases left <;> simp_all [Ty.isNumeric]

theorem Ty.requireSame_eq_ok {expected got : Ty} {u : Unit}
    (h : expected.requireSame got span = .ok u) : got = expected := by
  rw [Ty.requireSame] at h
  split at h
  · assumption
  · cases h

theorem Ty.requireAccepts_eq_ok {target source : Ty} {u : Unit}
    (h : target.requireAccepts source span = .ok u) : target.accepts source = true := by
  rw [Ty.requireAccepts] at h
  split at h
  · assumption
  · cases h

section Arithmetic

variable {onIntegers : Int → Int → Option Int} {onDecimals : Decimal → Decimal → Option Decimal}

/-- Arithmetic with a missing operand is a mismatch. -/
theorem Value.isMismatch_arithmetic (hnil : a = .nil ∨ b = .nil) :
    ∃ e, a.arithmetic onIntegers onDecimals b span = .error e ∧ e.IsMismatch := by
  rcases hnil with rfl | rfl
  · exact ⟨_, rfl, Value.isMismatch_mismatch ..⟩
  · cases a <;> exact ⟨_, rfl, Value.isMismatch_mismatch ..⟩

/-- Arithmetic on two values of one numeric type. -/
theorem Value.arithmetic_of_fits (hty : ty = .integer ∨ ty = .decimal)
    (ha : a.Fits missing ty) (hb : b.Fits missing ty) :
    Value.Yields missing ty (a = .nil ∨ b = .nil)
      (a.arithmetic onIntegers onDecimals b span) := by
  by_cases hnil : a = .nil ∨ b = .nil
  · have hne : ty ≠ .nil ∧ ty ≠ .any := by rcases hty with rfl | rfl <;> decide
    have hm : missing := by
      rcases hnil with rfl | rfl
      · exact ha.missing_of_nil hne.1 hne.2
      · exact hb.missing_of_nil hne.1 hne.2
    have hmis : ∃ e, a.arithmetic onIntegers onDecimals b span = .error e ∧ e.IsMismatch :=
      Value.isMismatch_arithmetic hnil
    obtain ⟨e, he, hmis⟩ := hmis
    exact .of_mismatch he hm hmis hnil
  · rw [not_or] at hnil
    rcases hty with rfl | rfl
    · obtain ⟨x, rfl⟩ := ha.resolve_left fun h => hnil.1 h.2
      obtain ⟨y, rfl⟩ := hb.resolve_left fun h => hnil.2 h.2
      cases hxy : onIntegers x y with
      | some n => exact .of_ok (by simp [Value.arithmetic, hxy]) (Value.fits_integer n)
      | none =>
        have herror : (Value.integer x).arithmetic onIntegers onDecimals (.integer y) span =
            .error (.divisionByZero span) := by simp [Value.arithmetic, hxy]
        exact .of_runtime herror rfl
    · obtain ⟨x, rfl⟩ := ha.resolve_left fun h => hnil.1 h.2
      obtain ⟨y, rfl⟩ := hb.resolve_left fun h => hnil.2 h.2
      cases hxy : onDecimals x y with
      | some d => exact .of_ok (by simp [Value.arithmetic, hxy]) (Value.fits_decimal d)
      | none =>
        have herror : (Value.decimal x).arithmetic onIntegers onDecimals (.decimal y) span =
            .error (.divisionByZero span) := by simp [Value.arithmetic, hxy]
        exact .of_runtime herror rfl

end Arithmetic

/-! ### Comparisons -/

/-- The operator compares its operands by their order. -/
def BinaryOp.IsOrdering (op : BinaryOp) : Prop := op = .lt ∨ op = .gt

/-- An ordering is no logic. -/
theorem BinaryOp.IsOrdering.not_logic {op : BinaryOp} (h : op.IsOrdering) :
    ¬(op = .and ∨ op = .or) := by
  rcases h with rfl | rfl <;> decide

/-- A type that `Comparable` accepts has no missing value of its own. -/
theorem Ty.ne_of_comparable_accepts (h : Ty.comparable.accepts ty = true) :
    ty ≠ .nil ∧ ty ≠ .any := by
  constructor <;> rintro rfl <;> cases h

/-- A comparison is typed by two comparable operands, of which the left type accepts the right. -/
theorem BinaryOp.resultTy_comparison {op : BinaryOp} (hop : op.IsOrdering ∨ op = .eq ∨ op = .ne)
    (h : op.resultTy left right span = .ok ty) :
    Ty.comparable.accepts left = true ∧ Ty.comparable.accepts right = true ∧
      left.accepts right = true ∧ ty = .boolean := by
  have h' : (do
      Ty.comparable.requireAccepts left span
      Ty.comparable.requireAccepts right span
      left.requireAccepts right span
      return Ty.boolean : Except Error Ty) = .ok ty := by
    rcases hop with (rfl | rfl) | rfl | rfl <;> exact h
  obtain ⟨_, h₁, h'⟩ := Except.bind_ok_inv h'
  obtain ⟨_, h₂, h'⟩ := Except.bind_ok_inv h'
  obtain ⟨_, h₃, h'⟩ := Except.bind_ok_inv h'
  cases h'
  exact ⟨Ty.requireAccepts_eq_ok h₁, Ty.requireAccepts_eq_ok h₂, Ty.requireAccepts_eq_ok h₃, rfl⟩

/-- Two values of different kinds have no order. -/
theorem Value.order?_eq_none_of_kind_ne (h : a.kind ≠ b.kind) : a.order? b = none := by
  cases a <;> cases b <;> first | rfl | exact absurd rfl h

/-- A missing value has no order. -/
theorem Value.order?_eq_none_of_nil (h : a = .nil ∨ b = .nil) : a.order? b = none := by
  rcases h with rfl | rfl
  · rfl
  · cases a <;> rfl

/-- Two comparable values of one kind have an order. -/
theorem Value.order?_isSome (ha : a.Inhabits missing .comparable)
    (hb : b.Inhabits missing .comparable) (hkind : a.kind = b.kind) :
    (a.order? b).isSome = true := by
  rcases ha with ⟨x, rfl⟩ | ⟨x, rfl⟩ | ⟨x, rfl⟩ | ⟨x, rfl⟩ <;>
    rcases hb with ⟨y, rfl⟩ | ⟨y, rfl⟩ | ⟨y, rfl⟩ | ⟨y, rfl⟩ <;>
      first | rfl | simp [Value.kind] at hkind

/-- Two values of one definite orderable type are of one kind. -/
theorem Value.kind_eq_of_inhabits (hty : ty.isComparable = true) (ha : a.Inhabits missing ty)
    (hb : b.Inhabits missing ty) : a.kind = b.kind := by
  cases ty with
  | integer => obtain ⟨⟨x, rfl⟩, y, rfl⟩ := And.intro ha hb; rfl
  | decimal => obtain ⟨⟨x, rfl⟩, y, rfl⟩ := And.intro ha hb; rfl
  | character => obtain ⟨⟨x, rfl⟩, y, rfl⟩ := And.intro ha hb; rfl
  | string => obtain ⟨⟨x, rfl⟩, y, rfl⟩ := And.intro ha hb; rfl
  | _ => cases hty

/-- The order of two operands whose types the checker lets be compared.  Unless values may be
missing, the left type must be more definite than `Comparable`. -/
theorem Value.ordering_of_fits (span : Span) (hleft : Ty.comparable.accepts left = true)
    (hright : Ty.comparable.accepts right = true) (hacc : left.accepts right = true)
    (hdef : missing ∨ left ≠ .comparable) (ha : a.Fits missing left) (hb : b.Fits missing right) :
    (∃ order, a.ordering b span = .ok order) ∨
      a.ordering b span = .error (Value.mismatch a.kind b span) ∧ missing ∧
        (a = .nil ∨ b = .nil ∨ a.kind ≠ b.kind) := by
  by_cases hnil : a = .nil ∨ b = .nil
  · have hnone := Value.order?_eq_none_of_nil hnil
    have hm : missing := by
      rcases hnil with rfl | rfl
      · exact ha.missing_of_nil (Ty.ne_of_comparable_accepts hleft).1
          (Ty.ne_of_comparable_accepts hleft).2
      · exact hb.missing_of_nil (Ty.ne_of_comparable_accepts hright).1
          (Ty.ne_of_comparable_accepts hright).2
    exact .inr ⟨by simp [Value.ordering, hnone], hm, by tauto⟩
  · rw [not_or] at hnil
    have hca := (ha.of_accepts hleft).resolve_left fun h => hnil.1 h.2
    have hcb := (hb.of_accepts hright).resolve_left fun h => hnil.2 h.2
    by_cases hkind : a.kind = b.kind
    · obtain ⟨order, horder⟩ := Option.isSome_iff_exists.1 (Value.order?_isSome hca hcb hkind)
      exact .inl ⟨order, by simp [Value.ordering, horder]⟩
    · have hm : missing := by
        refine hdef.resolve_right fun hne => hkind ?_
        -- a definite left type accepts only itself
        have hcmp : left.isComparable = true := by
          rcases Ty.accepts_iff.1 hleft with h | h | ⟨-, h⟩
          · exact absurd h.symm hne
          · cases h
          · exact h
        have hsame : left = right := by
          rcases Ty.accepts_iff.1 hacc with h | h | ⟨h, -⟩
          · exact h
          · subst h; cases hcmp
          · exact absurd h hne
        subst hsame
        exact Value.kind_eq_of_inhabits hcmp (ha.resolve_left fun h => hnil.1 h.2)
          (hb.resolve_left fun h => hnil.2 h.2)
      have hnone := Value.order?_eq_none_of_kind_ne hkind
      exact .inr ⟨by simp [Value.ordering, hnone], hm, .inr (.inr hkind)⟩

/-! ### Powers and logic -/

/-- Two integer requirements, or two truth requirements, one after the other. -/
theorem Ty.requireBoth_eq_ok {expected result : Ty}
    (h : (do
      expected.requireSame left span
      expected.requireSame right span
      return result : Except Error Ty) = .ok ty) :
    left = expected ∧ right = expected ∧ ty = result := by
  obtain ⟨_, h₁, h⟩ := Except.bind_ok_inv h
  obtain ⟨_, h₂, h⟩ := Except.bind_ok_inv h
  cases h
  exact ⟨Ty.requireSame_eq_ok h₁, Ty.requireSame_eq_ok h₂, rfl⟩

/-- Logic is typed by two truth values. -/
theorem BinaryOp.resultTy_logic {op : BinaryOp} (hop : op = .and ∨ op = .or)
    (h : op.resultTy left right span = .ok ty) :
    left = .boolean ∧ right = .boolean ∧ ty = .boolean := by
  rcases hop with rfl | rfl <;> exact Ty.requireBoth_eq_ok h

/-- A power of integers. -/
theorem Value.raised_of_fits (ha : a.Fits missing .integer) (hb : b.Fits missing .integer) :
    Value.Yields missing .integer (a = .nil ∨ b = .nil) (a.raised b span) := by
  rcases ha with ⟨hm, rfl⟩ | ⟨base, rfl⟩
  · exact .of_mismatch rfl hm (Value.isMismatch_mismatch ..) (.inl rfl)
  · rcases hb with ⟨hm, rfl⟩ | ⟨exponent, rfl⟩
    · exact .of_mismatch rfl hm (Value.isMismatch_mismatch ..) (.inr rfl)
    · by_cases hneg : exponent < 0
      · exact .of_runtime (if_pos hneg) rfl
      · exact .of_ok (if_neg hneg) (Value.fits_integer _)

/-! ### All operators but logic -/

/-- What operators share: a mismatch is due to a missing operand, or to an ordering of two kinds. -/
def BinaryOp.Behaves (missing : Prop) (op : BinaryOp) (a b : Value) (ty : Ty) (span : Span) :
    Prop :=
  Value.Yields missing ty ((a = .nil ∨ b = .nil) ∨ op.IsOrdering ∧ a.kind ≠ b.kind)
    (op.apply a b span)

/-- Most operators can only fail with a mismatch if an operand is missing. -/
theorem BinaryOp.Behaves.of_yields {op : BinaryOp}
    (h : Value.Yields missing ty (a = .nil ∨ b = .nil) (op.apply a b span)) :
    op.Behaves missing a b ty span :=
  h.mono .inl

/-- An ordering of two operands that the checker lets be compared. -/
theorem BinaryOp.behaves_ordering {op : BinaryOp} (hop : op.IsOrdering)
    (hty : op.resultTy left right place = .ok ty) (hdef : missing ∨ left ≠ .comparable)
    (ha : a.Fits missing left) (hb : b.Fits missing right) : op.Behaves missing a b ty span := by
  obtain ⟨hleft, hright, hacc, rfl⟩ := BinaryOp.resultTy_comparison (.inl hop) hty
  rcases Value.ordering_of_fits span hleft hright hacc hdef ha hb with
    ⟨order, horder⟩ | ⟨herror, hm, hwhy⟩
  · rcases hop with rfl | rfl
    · have hlt : BinaryOp.lt.apply a b span = .ok (.boolean (order == .lt)) := by
        rw [BinaryOp.apply, horder]
        rfl
      exact .of_ok hlt (Value.fits_boolean _)
    · have hgt : BinaryOp.gt.apply a b span = .ok (.boolean (order == .gt)) := by
        rw [BinaryOp.apply, horder]
        rfl
      exact .of_ok hgt (Value.fits_boolean _)
  · have happly : op.apply a b span = .error (Value.mismatch a.kind b span) := by
      rcases hop with rfl | rfl <;> (rw [BinaryOp.apply, herror]; rfl)
    refine .of_mismatch happly hm (Value.isMismatch_mismatch a.kind b span) ?_
    rcases hwhy with h | h | h
    · exact .inl (.inl h)
    · exact .inl (.inr h)
    · exact .inr ⟨hop, h⟩

/-- An operator that is arithmetic on two numbers of one type. -/
theorem BinaryOp.behaves_arithmetic {op : BinaryOp} {onIntegers : Int → Int → Option Int}
    {onDecimals : Decimal → Decimal → Option Decimal} (hty : left.arithmetic right place = .ok ty)
    (happly : op.apply a b span = a.arithmetic onIntegers onDecimals b span)
    (ha : a.Fits missing left) (hb : b.Fits missing right) : op.Behaves missing a b ty span := by
  obtain ⟨hnum, rfl, rfl⟩ := Ty.arithmetic_eq_ok hty
  refine .of_yields ?_
  rw [happly]
  exact Value.arithmetic_of_fits hnum ha hb

/-- A sum: texts are joined, numbers added; two operands of which one should be a text but is
missing cannot be added. -/
theorem BinaryOp.behaves_add (hty : BinaryOp.add.resultTy left right place = .ok ty)
    (ha : a.Fits missing left) (hb : b.Fits missing right) :
    BinaryOp.add.Behaves missing a b ty span := by
  rw [BinaryOp.resultTy] at hty
  by_cases hjoin : (a.isString || b.isString) = true
  · -- a text at run time was a text for the checker, too
    have hstring : ty = .string := by
      split at hty
      · cases hty; rfl
      · rename_i hne
        obtain ⟨hnum, rfl, rfl⟩ := Ty.arithmetic_eq_ok hty
        rcases hnum with rfl | rfl <;> rcases ha with ⟨-, rfl⟩ | ⟨x, rfl⟩ <;>
          rcases hb with ⟨-, rfl⟩ | ⟨y, rfl⟩ <;> cases hjoin
    subst hstring
    exact .of_ok (by rw [BinaryOp.apply, if_pos hjoin]) (Value.fits_string _)
  · have happly : BinaryOp.add.apply a b span =
        a.arithmetic (fun a b => some (a + b)) (fun a b => some (a.add b)) b span := by
      rw [BinaryOp.apply, if_neg hjoin]
    split at hty
    · rename_i hstring
      rw [Bool.or_eq_true, not_or] at hjoin
      have hnil : missing ∧ (a = .nil ∨ b = .nil) := by
        rcases hstring with rfl | rfl
        · rcases ha with ⟨hm, h⟩ | ⟨s, rfl⟩
          · exact ⟨hm, .inl h⟩
          · exact absurd rfl hjoin.1
        · rcases hb with ⟨hm, h⟩ | ⟨s, rfl⟩
          · exact ⟨hm, .inr h⟩
          · exact absurd rfl hjoin.2
      obtain ⟨e, he, hmis⟩ := Value.isMismatch_arithmetic hnil.2
      exact .of_mismatch (happly.trans he) hnil.1 hmis (.inl hnil.2)
    · exact behaves_arithmetic hty happly ha hb

/-- **Operators on fitting operands.**  Unless values may be missing, an ordering needs a left
operand of a type more definite than `Comparable`. -/
theorem BinaryOp.apply_of_fits {op : BinaryOp} (hlogic : ¬(op = .and ∨ op = .or))
    (hty : op.resultTy left right place = .ok ty)
    (hdef : missing ∨ (op.IsOrdering → left ≠ .comparable))
    (ha : a.Fits missing left) (hb : b.Fits missing right) : op.Behaves missing a b ty span := by
  cases op with
  | and => exact absurd (.inl rfl) hlogic
  | or => exact absurd (.inr rfl) hlogic
  | lt => exact behaves_ordering (.inl rfl) hty (hdef.imp_right fun h => h (.inl rfl)) ha hb
  | gt => exact behaves_ordering (.inr rfl) hty (hdef.imp_right fun h => h (.inr rfl)) ha hb
  | eq =>
    obtain ⟨-, -, -, rfl⟩ := BinaryOp.resultTy_comparison (.inr (.inl rfl)) hty
    exact .of_ok rfl (Value.fits_boolean _)
  | ne =>
    obtain ⟨-, -, -, rfl⟩ := BinaryOp.resultTy_comparison (.inr (.inr rfl)) hty
    exact .of_ok rfl (Value.fits_boolean _)
  | add => exact behaves_add hty ha hb
  | sub => exact behaves_arithmetic hty (by rw [BinaryOp.apply]) ha hb
  | mul => exact behaves_arithmetic hty (by rw [BinaryOp.apply]) ha hb
  | div => exact behaves_arithmetic hty (by rw [BinaryOp.apply]) ha hb
  | pow =>
    obtain ⟨rfl, rfl, rfl⟩ := Ty.requireBoth_eq_ok hty
    exact .of_yields (Value.raised_of_fits ha hb)

/-! ### Operators on operands that do not fit -/

theorem Value.isMismatch_of_truth {e : Error} (h : v.truth span = .error e) : e.IsMismatch := by
  cases v <;> cases h <;> exact Value.isMismatch_mismatch ..

/-- Logic fails only with a mismatch. -/
theorem Value.isMismatch_of_logic {e : Error} {f : Bool → Bool → Value}
    (h : (do return f (← a.truth span) (← b.truth span) : Except Error Value) = .error e) :
    e.IsMismatch := by
  cases ha : a.truth span with
  | error e' =>
    rw [ha] at h
    cases h
    exact Value.isMismatch_of_truth ha
  | ok x =>
    cases hb : b.truth span with
    | error e' =>
      rw [ha, hb] at h
      cases h
      exact Value.isMismatch_of_truth hb
    | ok y =>
      rw [ha, hb] at h
      cases h

/-- An ordering fails with a mismatch where an operand is missing. -/
theorem Value.isMismatch_of_ordering {e : Error} {f : Ordering → Value} (hnil : a = .nil ∨ b = .nil)
    (h : (do return f (← a.ordering b span) : Except Error Value) = .error e) : e.IsMismatch := by
  rw [Value.ordering, Value.order?_eq_none_of_nil hnil] at h
  cases h
  exact Value.isMismatch_mismatch ..

/-- Arithmetic fails with a mismatch where an operand is missing. -/
theorem Value.isMismatch_of_arithmetic {e : Error} {onIntegers : Int → Int → Option Int}
    {onDecimals : Decimal → Decimal → Option Decimal} (hnil : a = .nil ∨ b = .nil)
    (h : a.arithmetic onIntegers onDecimals b span = .error e) : e.IsMismatch := by
  have hmis : ∃ e, a.arithmetic onIntegers onDecimals b span = .error e ∧ e.IsMismatch :=
    Value.isMismatch_arithmetic hnil
  obtain ⟨e', he', hmis⟩ := hmis
  rw [he'] at h
  cases h
  exact hmis

/-- Where an operand is missing, an operator fails with a mismatch if it fails. -/
theorem BinaryOp.isMismatch_of_nil {op : BinaryOp} {e : Error} (hnil : a = .nil ∨ b = .nil)
    (h : op.apply a b span = .error e) : e.IsMismatch := by
  cases op with
  | and => exact Value.isMismatch_of_logic h
  | or => exact Value.isMismatch_of_logic h
  | lt => exact Value.isMismatch_of_ordering hnil h
  | gt => exact Value.isMismatch_of_ordering hnil h
  | eq => cases h
  | ne => cases h
  | add =>
    rw [BinaryOp.apply] at h
    split at h
    · cases h
    · exact Value.isMismatch_of_arithmetic hnil h
  | sub =>
    rw [BinaryOp.apply] at h
    exact Value.isMismatch_of_arithmetic hnil h
  | mul =>
    rw [BinaryOp.apply] at h
    exact Value.isMismatch_of_arithmetic hnil h
  | div =>
    rw [BinaryOp.apply] at h
    exact Value.isMismatch_of_arithmetic hnil h
  | pow =>
    rcases hnil with rfl | rfl
    · cases h
      exact Value.isMismatch_mismatch ..
    · cases a <;> cases h <;> exact Value.isMismatch_mismatch ..

/-- An ordering of values of different kinds is a mismatch. -/
theorem BinaryOp.apply_of_kind_ne {op : BinaryOp} (hop : op.IsOrdering) (hkind : a.kind ≠ b.kind) :
    op.apply a b span = .error (Value.mismatch a.kind b span) := by
  have herror : a.ordering b span = .error (Value.mismatch a.kind b span) := by
    rw [Value.ordering, Value.order?_eq_none_of_kind_ne hkind]
  rcases hop with rfl | rfl <;> (rw [BinaryOp.apply, herror]; rfl)

end ImpTree
