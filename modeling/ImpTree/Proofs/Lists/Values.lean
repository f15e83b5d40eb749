import ImpTree.Proofs.Run.Outcomes
import ImpTree.Proofs.Run.Steps

/-!
# Values without empty lists

Operations on values make no empty list where there was none.  Only reading and writing an element
can find an index out of bounds, and the error then tells of the index and the list.

* `Value.parts` — a value and the values inside it.
* `Value.EmptyFree` — no list inside a value is empty.
* `Error.InBounds` — an error that is not about an index out of bounds.
* `BinaryOp.apply_emptyFree`, `Value.elementAt_emptyFree`, `Value.withElementAt_emptyFree` — **the
  operations**.
* `Value.elementAt_bounds`, `Value.withElementAt_bounds` — when an index is out of bounds.
-/

namespace ImpTree

/-! ## Parts of a value -/

namespace Value

mutual

/-- The value and the values inside it, at any depth. -/
def parts : Value → List Value
  | list items => list items :: allParts items
  | nil => [nil]
  | boolean b => [boolean b]
  | integer n => [integer n]
  | decimal d => [decimal d]
  | character c => [character c]
  | string s => [string s]

/-- The values and the values inside them. -/
def allParts : List Value → List Value
  | [] => []
  | v :: rest => parts v ++ allParts rest

end

theorem allParts_eq_flatMap (items : List Value) : allParts items = items.flatMap parts := by
  induction items with
  | nil => rfl
  | cons v rest ih => rw [allParts, ih, List.flatMap_cons]

/-- No list inside the value is empty, the value included. -/
def EmptyFree (v : Value) : Prop := ∀ items, list items ∈ v.parts → items ≠ []

variable {v : Value} {items : List Value}

/-- A value that is no list has no list inside. -/
theorem emptyFree_of_ne_list (h : ∀ items, v ≠ list items) : v.EmptyFree := by
  intro items hitems
  cases v with
  | list all => exact absurd rfl (h all)
  | _ => exact absurd hitems (by simp [parts])

/-- A list is without empty lists if it has elements and they are. -/
theorem emptyFree_list :
    (list items).EmptyFree ↔ items ≠ [] ∧ ∀ item ∈ items, item.EmptyFree := by
  simp only [EmptyFree, parts, allParts_eq_flatMap, List.mem_cons, List.mem_flatMap]
  constructor
  · intro h
    exact ⟨h items (.inl rfl),
      fun item hitem inside hinside => h inside (.inr ⟨item, hitem, hinside⟩)⟩
  · rintro ⟨hne, hitems⟩ inside (hself | ⟨item, hitem, hinside⟩)
    · cases hself
      exact hne
    · exact hitems item hitem inside hinside

@[simp]
theorem emptyFree_nil : nil.EmptyFree := emptyFree_of_ne_list nofun

@[simp]
theorem emptyFree_boolean (x : Bool) : (boolean x).EmptyFree := emptyFree_of_ne_list nofun

end Value

/-- What a constant stands for is no list. -/
theorem Literal.emptyFree_value (literal : Literal) : literal.value.EmptyFree := by
  cases literal <;> exact Value.emptyFree_of_ne_list nofun

/-! ## Operations -/

/-- The error does not say that an index is out of bounds. -/
def Error.InBounds : Error → Prop
  | .indexOutOfBounds .. => False
  | _ => True

namespace Value

variable {v index item new changed : Value} {items : List Value} {i : Int} {span : Span}
  {e : Error}

/-! ### Lists -/

/-- The integer is none of the positions of the list. -/
def Outside (items : List Value) (i : Int) : Prop := i < 0 ∨ (items.length : Int) ≤ i

theorem Outside.not_inside (h : Outside items i) : ¬(0 ≤ i ∧ i < items.length) := by
  rw [Outside] at h
  omega

/-- Unless an integer is used as an index into a list, the kinds do not fit. -/
theorem indexed_or_error (v index : Value) (span : Span) :
    (∃ items i, v = list items ∧ index = integer i) ∨
      ∃ e : Error, v.elementAt index span = .error e ∧
        (∀ new, v.withElementAt index new span = .error e) ∧ e.InBounds := by
  cases v with
  | list items =>
    cases index with
    | integer i => exact .inl ⟨items, i, rfl, rfl⟩
    | _ => exact .inr ⟨_, rfl, fun _ => rfl, trivial⟩
  | _ => exact .inr ⟨_, rfl, fun _ => rfl, trivial⟩

/-- An integer is an index of a list if the list has such a position. -/
theorem exists_elementAt :
    (∃ v, (list items).elementAt (.integer i) span = .ok v) ↔ 0 ≤ i ∧ i < items.length := by
  rw [elementAt_list]
  split
  · rename_i hrange
    exact ⟨fun _ => hrange, fun _ => ⟨_, rfl⟩⟩
  · rename_i hrange
    exact ⟨nofun, fun h => absurd h hrange⟩

/-- **Reading an element.** -/
theorem elementAt_emptyFree (h : v.EmptyFree) (hitem : v.elementAt index span = .ok item) :
    item.EmptyFree := by
  rcases v.indexed_or_error index span with ⟨items, i, rfl, rfl⟩ | ⟨e, herror, -⟩
  · rw [elementAt_list] at hitem
    split at hitem
    · cases hitem
      exact (emptyFree_list.1 h).2 _ (getD_mem (by omega))
    · cases hitem
  · cases herror.symm.trans hitem

/-- **Writing an element.** -/
theorem withElementAt_emptyFree (h : v.EmptyFree) (hnew : new.EmptyFree)
    (hchanged : v.withElementAt index new span = .ok changed) : changed.EmptyFree := by
  rcases v.indexed_or_error index span with ⟨items, i, rfl, rfl⟩ | ⟨e, -, herror, -⟩
  · obtain ⟨hne, hitems⟩ := emptyFree_list.1 h
    rw [withElementAt_list] at hchanged
    split at hchanged
    · cases hchanged
      refine emptyFree_list.2 ⟨mt (List.set_eq_nil_iff _ new).1 hne, fun item hitem => ?_⟩
      rcases List.mem_or_eq_of_mem_set hitem with hold | rfl
      · exact hitems item hold
      · exact hnew
    · cases hchanged
  · cases (herror new).symm.trans hchanged

/-- **When reading finds an index out of bounds**: the index is an integer that is none of the
positions of the list, and the error tells of both. -/
theorem elementAt_bounds (h : v.elementAt index span = .error e) :
    e.InBounds ∨ ∃ items i, v = list items ∧ index = integer i ∧ Outside items i ∧
      e = .indexOutOfBounds (Integer.text i) items.length span := by
  rcases v.indexed_or_error index span with ⟨items, i, rfl, rfl⟩ | ⟨e', herror, -, he'⟩
  · rw [elementAt_list] at h
    split at h
    · cases h
    · cases h
      exact .inr ⟨items, i, rfl, rfl, by rw [Outside]; omega, rfl⟩
  · cases herror.symm.trans h
    exact .inl he'

/-- **When writing finds an index out of bounds.** -/
theorem withElementAt_bounds (h : v.withElementAt index new span = .error e) :
    e.InBounds ∨ ∃ items i, v = list items ∧ index = integer i ∧ Outside items i ∧
      e = .indexOutOfBounds (Integer.text i) items.length span := by
  rcases v.indexed_or_error index span with ⟨items, i, rfl, rfl⟩ | ⟨e', -, herror, he'⟩
  · rw [withElementAt_list] at h
    split at h
    · cases h
    · cases h
      exact .inr ⟨items, i, rfl, rfl, by rw [Outside]; omega, rfl⟩
  · cases (herror new).symm.trans h
    exact .inl he'

/-! ### Operators -/

theorem truth_bounds (v : Value) (span : Span) :
    Except.Meets (v.truth span) (fun _ => True) Error.InBounds := by
  cases v <;> trivial

theorem ordering_bounds (a b : Value) (span : Span) :
    Except.Meets (a.ordering b span) (fun _ => True) Error.InBounds := by
  rw [ordering]
  cases a.order? b <;> trivial

theorem arithmetic_emptyFree (onIntegers : Int → Int → Option Int)
    (onDecimals : Decimal → Decimal → Option Decimal) (a b : Value) (span : Span) :
    Except.Meets (a.arithmetic onIntegers onDecimals b span) EmptyFree Error.InBounds := by
  rw [arithmetic.eq_def]
  split
  · cases onIntegers _ _ with
    | some n => exact emptyFree_of_ne_list nofun
    | none => trivial
  · cases onDecimals _ _ with
    | some d => exact emptyFree_of_ne_list nofun
    | none => trivial
  all_goals trivial

theorem raised_emptyFree (a b : Value) (span : Span) :
    Except.Meets (a.raised b span) EmptyFree Error.InBounds := by
  rw [raised.eq_def]
  split
  · split
    · trivial
    · exact emptyFree_of_ne_list nofun
  all_goals trivial

end Value

/-- **An operator** never gives a list, and never fails with an index. -/
theorem BinaryOp.apply_emptyFree (op : BinaryOp) (a b : Value) (span : Span) :
    Except.Meets (op.apply a b span) Value.EmptyFree Error.InBounds := by
  cases op with
  | and | or =>
    exact (a.truth_bounds span).bind fun _ _ => (b.truth_bounds span).bind fun _ _ =>
      Value.emptyFree_boolean _
  | lt | gt => exact (a.ordering_bounds b span).bind fun _ _ => Value.emptyFree_boolean _
  | eq | ne => exact Value.emptyFree_boolean _
  | add =>
    rw [apply]
    split
    · exact Value.emptyFree_of_ne_list nofun
    · exact Value.arithmetic_emptyFree ..
  | sub | mul | div =>
    rw [apply]
    exact Value.arithmetic_emptyFree ..
  | pow => exact a.raised_emptyFree b span

end ImpTree
