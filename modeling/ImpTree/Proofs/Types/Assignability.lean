import ImpTree.Proofs.Typing.Values

/-!
# Assignability is a partial order

A type is below another that accepts it.  This is an order with `any` at the top: flows of a value
compose, and two types that accept each other are the same.  What a type accepts it also contains,
so along a chain of flows a value stays a value of the expected type.

* `Ty.accepts_trans`, `Ty.accepts_antisymm` — flows compose, and only equal types flow both ways.
* `Ty.values` — the values of a type, without missing ones.
* `Ty.values_mono` — **a type contains what it accepts.**
* `Ty.accepts_of_values_subset` — a type that is not a list type accepts what it contains.
* `Ty.assignability_ordered` — **assignability is a partial order of sets of values.**
-/

namespace ImpTree

namespace Ty

variable {a b c : Ty} {v : Value}

/-! ## The order -/

/-- Nothing but itself flows into a type whose values have an order of their own. -/
theorem eq_of_comparable_accepts (hb : b.isComparable = true) (h : b.accepts c = true) : b = c := by
  rcases accepts_iff.1 h with rfl | rfl | ⟨rfl, -⟩
  · rfl
  · cases hb
  · cases hb

/-- **Flows compose.** -/
theorem accepts_trans (hab : a.accepts b = true) (hbc : b.accepts c = true) :
    a.accepts c = true := by
  rcases accepts_iff.1 hab with rfl | rfl | ⟨rfl, hb⟩
  · exact hbc
  · exact any_accepts c
  · rw [← eq_of_comparable_accepts hb hbc]
    exact hab

/-- **Only equal types flow both ways.** -/
theorem accepts_antisymm (hab : a.accepts b = true) (hba : b.accepts a = true) : a = b := by
  rcases accepts_iff.1 hab with rfl | rfl | ⟨rfl, hb⟩
  · rfl
  · rcases accepts_iff.1 hba with rfl | rfl | ⟨-, hany⟩
    · rfl
    · rfl
    · cases hany
  · exact (eq_of_comparable_accepts hb hba).symm

/-- A type is at most another one if the other accepts it. -/
instance : PartialOrder Ty where
  le a b := b.accepts a = true
  le_refl := accepts_self
  le_trans _ _ _ hab hbc := accepts_trans hbc hab
  le_antisymm _ _ hab hba := accepts_antisymm hba hab

instance : OrderTop Ty where
  top := any
  le_top := any_accepts

/-! ## Values -/

/-- The values of a type; none of them is missing, inside lists neither. -/
def values (ty : Ty) : Set Value := {v | v.Inhabits False ty}

theorem values_any : any.values = Set.univ := Set.eq_univ_of_forall fun _ => trivial

@[simp]
theorem mem_values_list_iff :
    v ∈ (list a).values ↔ ∃ items, v = .list items ∧ ∀ item ∈ items, item ∈ a.values := by
  simp only [values, Set.mem_ofPred_eq, Value.Inhabits, false_and, false_or]

/-- The values with an order of their own are those of four types. -/
theorem values_comparable :
    comparable.values = integer.values ∪ decimal.values ∪ character.values ∪ string.values := by
  ext v
  simp only [values, Set.mem_union, Set.mem_ofPred_eq, Value.Inhabits, or_assoc]

/-- **A type contains what it accepts.** -/
theorem values_mono : Monotone values := by
  intro a b hab v hv
  have hfits : Value.Fits False b v := .of_accepts hab (.inr hv)
  exact hfits.resolve_left fun h => h.1

/-- Values by which a type is told from those that do not contain it. -/
def samples : Ty → List Value
  | nil => [.nil]
  | boolean => [.boolean false]
  | integer => [.integer 0]
  | decimal => [.decimal ⟨0, 0⟩]
  | character => [.character 'a']
  | string => [.string ""]
  | any => [.nil, .boolean false]
  | comparable => [.integer 0, .string ""]
  | list _ => [.list []]

theorem mem_values_of_mem_samples (h : v ∈ a.samples) : v ∈ a.values := by
  cases a with
  | any => trivial
  | nil => exact List.mem_singleton.1 h
  | comparable =>
    rcases List.mem_pair.1 h with rfl | rfl
    · exact .inl ⟨0, rfl⟩
    · exact .inr (.inr (.inr ⟨"", rfl⟩))
  | list element =>
    exact mem_values_list_iff.2 ⟨[], List.mem_singleton.1 h, fun _ hitem => nomatch hitem⟩
  | _ => exact ⟨_, List.mem_singleton.1 h⟩

/-- A type that is not a list type accepts what it contains. -/
theorem accepts_of_values_subset (ha : a.element? = none) (h : b.values ⊆ a.values) :
    a.accepts b = true := by
  have hsamples : ∀ v ∈ b.samples, v.Inhabits False a :=
    fun v hv => h (mem_values_of_mem_samples hv)
  cases a with
  | list element => cases ha
  | any => exact any_accepts b
  | _ => cases b <;> simp_all [samples, Value.Inhabits, accepts, isComparable]

/-- **Assignability is a partial order of sets of values**, and `any` is its top.  Every type
accepts itself, two types that accept each other are equal, flows compose, and `any` accepts every
type.  A type contains the values of every type that it accepts, where the comparable values are the
integers, decimals, characters and texts, every value belongs to `any`, and a list belongs to a list
type if all of its elements belong to the element type; and a type that is not a list type accepts
every type whose values it contains. -/
theorem assignability_ordered :
    (∀ a : Ty, a.accepts a = true) ∧
    (∀ a b : Ty, a.accepts b = true → b.accepts a = true → a = b) ∧
    (∀ a b c : Ty, a.accepts b = true → b.accepts c = true → a.accepts c = true) ∧
    (∀ a : Ty, any.accepts a = true) ∧
    (∀ a b : Ty, (a.accepts b = true → b.values ⊆ a.values) ∧
      (a.element? = none → b.values ⊆ a.values → a.accepts b = true)) ∧
    comparable.values = integer.values ∪ decimal.values ∪ character.values ∪ string.values ∧
    any.values = Set.univ ∧
    ∀ (a : Ty) (items : List Value),
      .list items ∈ (list a).values ↔ ∀ item ∈ items, item ∈ a.values := by
  refine ⟨accepts_self, fun _ _ => accepts_antisymm, fun _ _ _ => accepts_trans, any_accepts,
    fun a b => ⟨fun h => values_mono h, accepts_of_values_subset⟩, values_comparable,
    values_any, fun a items => ?_⟩
  rw [mem_values_list_iff]
  constructor
  · rintro ⟨_, heq, hitems⟩
    cases heq
    exact hitems
  · exact fun hitems => ⟨items, rfl, hitems⟩

/-- A decimal flows into a comparable variable and from there into one of any type, but not back. -/
theorem assignability_ordered_decimal :
    any.accepts comparable = true ∧ comparable.accepts decimal = true ∧
      any.accepts decimal = true ∧ .decimal ⟨250, 2⟩ ∈ comparable.values ∧
      comparable.accepts any = false := by
  have hany : any.accepts comparable = true := by decide
  have hcomparable : comparable.accepts decimal = true := by decide
  obtain ⟨-, -, htrans, -, hvalues, -⟩ := assignability_ordered
  exact ⟨hany, hcomparable, htrans any comparable decimal hany hcomparable,
    (hvalues comparable decimal).1 hcomparable ⟨_, rfl⟩, by decide⟩

end Ty

end ImpTree
