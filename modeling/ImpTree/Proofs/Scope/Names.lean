import ImpTree.Scope

/-!
# Names in scopes

When a name can be declared and found, and what a declaration leaves as it was.

* `Scope.withVariable`, `Scope.withCallee` — the scope after a declaration that succeeds.
* `Scope.addVariable_eq_ok`, `Scope.addFunction_eq_ok` — when a declaration succeeds.
* `Scope.findVariable_eq_ok`, `Scope.findFunction_eq_ok` — when a look-up succeeds.
-/

namespace ImpTree

namespace Scope

variable {s s' : Scope} {name : String} {arity : Nat} {span : Span}

/-! ## Look-ups -/

theorem findVariable_eq_ok {v : Variable} :
    s.findVariable name span = .ok v ↔ s.var? name = some v := by
  rw [findVariable]
  cases s.var? name <;> simp

theorem findFunction_eq_ok {c : Callee} :
    s.findFunction name arity span = .ok c ↔ s.callee? name arity = some c := by
  rw [findFunction]
  cases s.callee? name arity <;> simp

/-- A function that is found stands in one of the frames and has the name and number of arguments
that were looked for. -/
theorem callee?_eq_some {c : Callee} (h : s.callee? name arity = some c) :
    c.binding.name = name ∧ c.binding.arity = arity ∧ ∃ f ∈ s.frames, c ∈ f.callees := by
  obtain ⟨f, hf, hc⟩ := List.exists_of_findSome?_eq_some h
  have hkey := List.find?_some hc
  simp only [Bool.and_eq_true, beq_iff_eq] at hkey
  exact ⟨hkey.1, hkey.2, f, hf, List.mem_of_find?_eq_some hc⟩

/-- In the root alone, only the root is searched. -/
theorem callee?_root (root : Frame) :
    (Scope.mk [] root).callee? name arity = root.callee? name arity := by
  simp only [callee?, frames, List.nil_append, List.findSome?_cons]
  cases root.callee? name arity <;> rfl

/-! ## Declarations -/

/-- The scope with one more variable in its innermost frame. -/
def withVariable (s : Scope) (v : Variable) : Scope :=
  s.withInnermost { s.innermost with vars := v :: s.innermost.vars }

/-- The scope with one more function in its innermost frame. -/
def withCallee (s : Scope) (c : Callee) : Scope :=
  s.withInnermost { s.innermost with callees := c :: s.innermost.callees }

/-- A variable can be declared if the innermost frame does not have its name yet. -/
theorem addVariable_eq_ok {binding : VariableBinding} {value : Value} :
    s.addVariable binding value span = .ok s' ↔
      s.innermost.var? binding.name = none ∧ s' = s.withVariable ⟨binding, value⟩ := by
  rw [addVariable]
  cases s.innermost.var? binding.name <;> simp [withVariable, eq_comm]

/-- A function can be declared if the innermost frame does not have its name and number of arguments
yet. -/
theorem addFunction_eq_ok {c : Callee} :
    s.addFunction c span = .ok s' ↔
      s.innermost.callee? c.binding.name c.binding.arity = none ∧ s' = s.withCallee c := by
  simp only [addFunction]
  cases s.innermost.callee? c.binding.name c.binding.arity <;> simp [withCallee, eq_comm]

/-! ## What a declaration leaves as it was -/

@[simp]
theorem leave_withVariable (h : s.inner ≠ []) (v : Variable) :
    (s.withVariable v).leave = s.leave := by
  obtain ⟨_ | ⟨f, rest⟩, root⟩ := s
  · exact absurd rfl h
  · rfl

@[simp]
theorem inner_withVariable_eq_nil {v : Variable} :
    (s.withVariable v).inner = [] ↔ s.inner = [] := by
  obtain ⟨_ | ⟨f, rest⟩, root⟩ := s <;> simp [withVariable, withInnermost]

theorem inner_withVariable_ne_nil {v : Variable} :
    (s.withVariable v).inner ≠ [] ↔ s.inner ≠ [] :=
  not_congr inner_withVariable_eq_nil

@[simp]
theorem inner_withCallee_eq_nil {c : Callee} : (s.withCallee c).inner = [] ↔ s.inner = [] := by
  obtain ⟨_ | ⟨f, rest⟩, root⟩ := s <;> simp [withCallee, withInnermost]

@[simp]
theorem root_withVariable (h : s.inner ≠ []) (v : Variable) :
    (s.withVariable v).root = s.root := by
  obtain ⟨_ | ⟨f, rest⟩, root⟩ := s
  · exact absurd rfl h
  · rfl

theorem root_withCallee (h : s.inner = []) (c : Callee) :
    (s.withCallee c).root = { s.root with callees := c :: s.root.callees } := by
  obtain ⟨inner, root⟩ := s
  subst h
  rfl

/-- A variable changes no function. -/
theorem callees_withVariable (v : Variable) :
    (s.withVariable v).frames.map Frame.callees = s.frames.map Frame.callees := by
  obtain ⟨_ | ⟨f, rest⟩, root⟩ := s <;> rfl

/-- The functions of a frame after a variable is declared stood in a frame before. -/
theorem exists_frame_of_withVariable {v : Variable} {frame : Frame}
    (h : frame ∈ (s.withVariable v).frames) : ∃ old ∈ s.frames, old.callees = frame.callees := by
  have hmem : frame.callees ∈ s.frames.map Frame.callees := by
    rw [← callees_withVariable v]
    exact List.mem_map_of_mem h
  exact List.mem_map.1 hmem

/-- A function that is found in the root stays the one that is found there when another function
can be declared. -/
theorem callee?_withCallee {c found : Callee} (hroot : s.inner = [])
    (hnew : s.innermost.callee? c.binding.name c.binding.arity = none)
    (h : s.callee? name arity = some found) : (s.withCallee c).callee? name arity = some found := by
  obtain ⟨inner, root⟩ := s
  subst hroot
  rw [callee?_root] at h
  have hkey : (c.binding.name == name && c.binding.arity == arity) = false := by
    rw [Bool.eq_false_iff]
    intro hkey
    simp only [Bool.and_eq_true, beq_iff_eq] at hkey
    rw [hkey.1, hkey.2] at hnew
    rw [show (Scope.mk [] root).innermost = root from rfl, h] at hnew
    cases hnew
  have hlookup : Frame.callee? { root with callees := c :: root.callees } name arity =
      some found := by
    rw [Frame.callee?, List.find?_cons, hkey]
    exact h
  exact (callee?_root _).trans hlookup

/-- A function that has just been declared is found. -/
theorem callee?_withCallee_self (c : Callee) :
    (s.withCallee c).callee? c.binding.name c.binding.arity = some c := by
  obtain ⟨_ | ⟨f, rest⟩, root⟩ := s <;>
    simp [callee?, frames, withCallee, withInnermost, Frame.callee?]

end Scope

end ImpTree
