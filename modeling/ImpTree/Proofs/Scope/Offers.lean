import ImpTree.Proofs.Scope.Names

/-!
# Scopes whose functions stand in the root

Blocks declare variables only, so all functions of a run stand in the root.  What a scope has of
variables does not depend on its functions.

* `Callee.among?` — the function of a name among several.
* `Scope.Offers` — the functions of a scope, all of them in its root.
* `Scope.withCallees` — the scope with other functions in its root.
* `Scope.Swaps` — two scopes that differ in their functions only.
-/

namespace ImpTree

/-- The function of a given name and number of arguments, among several. -/
def Callee.among? (cs : List Callee) (name : String) (arity : Nat) : Option Callee :=
  cs.find? fun c => c.binding.name == name && c.binding.arity == arity

namespace Scope

variable {cs cs' : List Callee} {s s' : Scope} {name : String}

/-! ## The functions of a scope -/

/-- The scope has exactly the given functions, and all of them stand in its root. -/
structure Offers (cs : List Callee) (s : Scope) : Prop where
  /-- The functions of the root. -/
  root : s.root.callees = cs
  /-- The other frames have none. -/
  inner : ∀ f ∈ s.inner, f.callees = []

/-- A function is found among those that the scope offers. -/
theorem Offers.callee? (h : s.Offers cs) (name : String) (arity : Nat) :
    s.callee? name arity = Callee.among? cs name arity := by
  have hinner : s.inner.findSome? (fun f => f.callee? name arity) = none := by
    rw [List.findSome?_eq_none_iff]
    intro f hf
    rw [Frame.callee?, h.inner f hf]
    rfl
  rw [Scope.callee?, frames, List.findSome?_append, hinner, ← h.root, Option.none_or,
    List.findSome?_cons, Callee.among?, ← Frame.callee?]
  cases s.root.callee? name arity <;> rfl

theorem Offers.child (h : s.Offers cs) : s.child.Offers cs :=
  ⟨h.root, List.forall_mem_cons.2 ⟨rfl, h.inner⟩⟩

theorem Offers.leave (h : s.Offers cs) : s.leave.Offers cs :=
  ⟨h.root, fun f hf => h.inner f (List.mem_of_mem_drop hf)⟩

theorem Offers.global (h : s.Offers cs) : s.global.Offers cs := ⟨h.root, List.forall_mem_nil _⟩

/-- A variable changes no function. -/
theorem Offers.withVariable (h : s.Offers cs) (v : Variable) : (s.withVariable v).Offers cs := by
  obtain ⟨_ | ⟨f, rest⟩, root⟩ := s
  · exact ⟨h.root, h.inner⟩
  · have hinner := List.forall_mem_cons.1 h.inner
    exact ⟨h.root, List.forall_mem_cons.2 ⟨hinner.1, hinner.2⟩⟩

/-- Frames keep their functions when a variable is assigned to. -/
theorem callees_assignIn (name : String) (value : Value) : ∀ (fs : List Frame) (last : Frame),
    (assignIn name value fs last).1.map Frame.callees = fs.map Frame.callees ∧
      (assignIn name value fs last).2.callees = last.callees := by
  intro fs last
  induction fs with
  | nil => exact ⟨rfl, rfl⟩
  | cons f rest ih =>
    rw [assignIn]
    split
    · exact ⟨rfl, rfl⟩
    · exact ⟨congrArg (f.callees :: ·) ih.1, ih.2⟩

/-- An assignment changes no function. -/
theorem Offers.assign (h : s.Offers cs) (name : String) (value : Value) :
    (s.assign name value).Offers cs := by
  obtain ⟨hinner, hroot⟩ := callees_assignIn name value s.inner s.root
  refine ⟨hroot.trans h.root, fun f hf => ?_⟩
  have hmem : f.callees ∈ s.inner.map Frame.callees := hinner ▸ List.mem_map_of_mem hf
  obtain ⟨old, hold, hcallees⟩ := List.mem_map.1 hmem
  rw [← hcallees, h.inner old hold]

/-! ## Other functions in the root -/

/-- The scope with other functions in its root. -/
def withCallees (cs : List Callee) (s : Scope) : Scope :=
  { s with root := { s.root with callees := cs } }

/-- Variables are found whatever functions there are. -/
@[simp]
theorem var?_withCallees : (s.withCallees cs).var? name = s.var? name := by
  simp only [Scope.var?, frames, List.findSome?_append]
  rfl

/-- A variable is declared whatever functions there are. -/
theorem withVariable_withCallees (v : Variable) :
    (s.withCallees cs).withVariable v = (s.withVariable v).withCallees cs := by
  obtain ⟨_ | ⟨f, rest⟩, root⟩ := s <;> rfl

/-- Whether a variable can be declared does not depend on the functions. -/
theorem addVariable_withCallees (binding : VariableBinding) (value : Value) (span : Span) :
    (s.withCallees cs).addVariable binding value span =
      (s.addVariable binding value span).map (withCallees cs) := by
  have hvar : (s.withCallees cs).innermost.var? binding.name =
      s.innermost.var? binding.name := by
    obtain ⟨_ | ⟨f, rest⟩, root⟩ := s <;> rfl
  cases h : s.innermost.var? binding.name with
  | some v =>
    rw [addVariable, addVariable, hvar, h]
    rfl
  | none =>
    rw [addVariable_eq_ok.2 ⟨hvar.trans h, rfl⟩, addVariable_eq_ok.2 ⟨h, rfl⟩,
      withVariable_withCallees]
    rfl

/-- An assignment of a variable in a list of frames does not depend on the functions of the last
frame. -/
theorem assignIn_withCallees (name : String) (value : Value) : ∀ (fs : List Frame) (last : Frame),
    assignIn name value fs { last with callees := cs } =
      ((assignIn name value fs last).1,
        { (assignIn name value fs last).2 with callees := cs }) := by
  intro fs last
  induction fs with
  | nil => rfl
  | cons f rest ih =>
    rw [assignIn, assignIn]
    split
    · rfl
    · rw [ih]

/-- An assignment does not depend on the functions. -/
theorem assign_withCallees (name : String) (value : Value) :
    (s.withCallees cs).assign name value = (s.assign name value).withCallees cs := by
  simp only [Scope.assign, withCallees, assignIn_withCallees]

/-! ## Scopes that differ in their functions -/

/-- The second scope is the first one with other functions in its root. -/
structure Swaps (cs cs' : List Callee) (s s' : Scope) : Prop where
  /-- The functions of the first scope. -/
  offers : s.Offers cs
  /-- The second scope. -/
  eq : s' = s.withCallees cs'

namespace Swaps

/-- The second scope offers the other functions. -/
theorem offers' (h : s.Swaps cs cs' s') : s'.Offers cs' := by
  rw [h.eq]
  exact ⟨rfl, h.offers.inner⟩

/-- Both scopes have the same variables. -/
theorem var? (h : s.Swaps cs cs' s') (name : String) : s'.var? name = s.var? name := by
  rw [h.eq, var?_withCallees]

theorem child (h : s.Swaps cs cs' s') : s.child.Swaps cs cs' s'.child :=
  ⟨h.offers.child, congrArg Scope.child h.eq⟩

theorem leave (h : s.Swaps cs cs' s') : s.leave.Swaps cs cs' s'.leave :=
  ⟨h.offers.leave, congrArg Scope.leave h.eq⟩

theorem global (h : s.Swaps cs cs' s') : s.global.Swaps cs cs' s'.global :=
  ⟨h.offers.global, congrArg Scope.global h.eq⟩

/-- A call gives back the inner frames and keeps what happened to the root. -/
theorem restore {t t' : Scope} (h : s.Swaps cs cs' s') (ht : t.Swaps cs cs' t') :
    Swaps cs cs' ⟨s.inner, t.root⟩ ⟨s'.inner, t'.root⟩ := by
  rw [h.eq, ht.eq]
  exact ⟨⟨ht.offers.root, h.offers.inner⟩, rfl⟩

theorem assign (h : s.Swaps cs cs' s') (name : String) (value : Value) :
    (s.assign name value).Swaps cs cs' (s'.assign name value) :=
  ⟨h.offers.assign name value, by rw [h.eq, assign_withCallees]⟩

end Swaps

end Scope

end ImpTree
