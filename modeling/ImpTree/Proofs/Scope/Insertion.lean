import ImpTree.Proofs.Scope.Operations

/-!
# Frames inserted into a scope

A scope into which frames are put, under a number of its own.  If the frames have no functions and
none of the variables that are looked up, nothing that happens in the scope notices them: names are
found as before, and what changes is changed in the frames that were there.

* `Frame.Idle` — frames that are not noticed where only certain names are used.
* `Scope.Inserted` — a scope and the scope with the frames put into it.
* `Scope.Inserted.var?`, `Scope.Inserted.callee?` — **names are found as without the frames.**
* `Scope.Inserted.assign`, `Scope.Inserted.withVariable` — **changes are made as without them.**
-/

namespace ImpTree

/-- The frames have no functions, and no variable of a name that is used. -/
structure Frame.Idle (uses : String → Prop) (fs : List Frame) : Prop where
  /-- None of the frames has a function. -/
  callees : ∀ f ∈ fs, f.callees = []
  /-- None of the frames has a variable of a name that is used. -/
  vars : ∀ name, uses name → ∀ f ∈ fs, f.var? name = none

theorem Frame.Idle.nil {uses : String → Prop} : Frame.Idle uses [] :=
  ⟨List.forall_mem_nil _, fun _ _ => List.forall_mem_nil _⟩

/-- An empty frame is never noticed. -/
theorem Frame.Idle.cons_empty {uses : String → Prop} {fs : List Frame} (h : Frame.Idle uses fs) :
    Frame.Idle uses (.empty :: fs) :=
  ⟨List.forall_mem_cons.2 ⟨rfl, h.callees⟩,
    fun name hname => List.forall_mem_cons.2 ⟨rfl, h.vars name hname⟩⟩

namespace Scope

/-- The second scope is the first one with frames put into it, under `n` of the frames that it
had. -/
def Inserted (fs : List Frame) (n : Nat) (s s' : Scope) : Prop :=
  ∃ (outer : Scope) (gs : List Frame), gs.length = n ∧ s = outer.within gs ∧
    s' = (outer.within fs).within gs

namespace Inserted

variable {fs : List Frame} {n : Nat} {s s' : Scope} {name : String}

/-- Frames that are put inside all others. -/
theorem here (fs : List Frame) (s : Scope) : Inserted fs 0 s (s.within fs) :=
  ⟨s, [], rfl, rfl, rfl⟩

theorem eq_within (h : Inserted fs 0 s s') : s' = s.within fs := by
  obtain ⟨outer, gs, hlength, rfl, rfl⟩ := h
  rw [List.length_eq_zero_iff.1 hlength]
  rfl

/-- The innermost of the frames that were put inside all others is left. -/
theorem leave_within {f : Frame} (h : Inserted (f :: fs) 0 s s') : Inserted fs 0 s s'.leave := by
  rw [h.eq_within]
  exact here fs s

/-- No frames make no difference. -/
theorem eq_of_nil (h : Inserted [] n s s') : s' = s := by
  obtain ⟨outer, gs, -, rfl, rfl⟩ := h
  rfl

theorem root (h : Inserted fs n s s') : s'.root = s.root := by
  obtain ⟨outer, gs, -, rfl, rfl⟩ := h
  rfl

/-- Whatever happens to the root happens to both. -/
theorem withRoot (h : Inserted fs n s s') (root : Frame) :
    Inserted fs n ⟨s.inner, root⟩ ⟨s'.inner, root⟩ := by
  obtain ⟨outer, gs, hlength, rfl, rfl⟩ := h
  exact ⟨⟨outer.inner, root⟩, gs, hlength, rfl, rfl⟩

/-! ### Frames -/

theorem child (h : Inserted fs n s s') : Inserted fs (n + 1) s.child s'.child := by
  obtain ⟨outer, gs, hlength, rfl, rfl⟩ := h
  exact ⟨outer, .empty :: gs, congrArg Nat.succ hlength, rfl, rfl⟩

theorem leave (h : Inserted fs (n + 1) s s') : Inserted fs n s.leave s'.leave := by
  obtain ⟨outer, gs, hlength, rfl, rfl⟩ := h
  obtain ⟨g, gs, rfl⟩ := List.exists_cons_of_length_eq_add_one hlength
  exact ⟨outer, gs, Nat.succ.inj hlength, rfl, rfl⟩

/-! ### Names that are found -/

/-- A variable is found as without the frames. -/
theorem var? (h : Inserted fs n s s') (hfs : ∀ f ∈ fs, f.var? name = none) :
    s'.var? name = s.var? name := by
  obtain ⟨outer, gs, -, rfl, rfl⟩ := h
  have hnone : fs.findSome? (fun f => f.var? name) = none := List.findSome?_eq_none_iff.2 hfs
  simp only [Scope.var?, within, frames, List.append_assoc, List.findSome?_append, hnone,
    Option.none_or]

/-- A function is found as without the frames. -/
theorem callee? (h : Inserted fs n s s') (hfs : ∀ f ∈ fs, f.callees = []) (arity : Nat) :
    s'.callee? name arity = s.callee? name arity := by
  obtain ⟨outer, gs, -, rfl, rfl⟩ := h
  have hnone : fs.findSome? (fun f => f.callee? name arity) = none := by
    rw [List.findSome?_eq_none_iff]
    intro f hf
    rw [Frame.callee?, hfs f hf, List.find?_nil]
  simp only [Scope.callee?, within, frames, List.append_assoc, List.findSome?_append, hnone,
    Option.none_or]

/-! ### Changes -/

/-- A declaration happens in a frame that was there. -/
theorem innermost (h : Inserted fs (n + 1) s s') : s'.innermost = s.innermost := by
  obtain ⟨outer, gs, hlength, rfl, rfl⟩ := h
  obtain ⟨g, gs, rfl⟩ := List.exists_cons_of_length_eq_add_one hlength
  rfl

theorem withVariable (h : Inserted fs (n + 1) s s') (v : Variable) :
    Inserted fs (n + 1) (s.withVariable v) (s'.withVariable v) := by
  obtain ⟨outer, gs, hlength, rfl, rfl⟩ := h
  obtain ⟨g, gs, rfl⟩ := List.exists_cons_of_length_eq_add_one hlength
  exact ⟨outer, { g with vars := v :: g.vars } :: gs, hlength, rfl, rfl⟩

/-- The variable that gets a new value is the one that gets it without the frames: it stands in one
of the frames inside them, or outside. -/
theorem assign (h : Inserted fs n s s') (hfs : ∀ f ∈ fs, f.var? name = none) (value : Value) :
    Inserted fs n (s.assign name value) (s'.assign name value) := by
  obtain ⟨outer, gs, hlength, rfl, rfl⟩ := h
  by_cases hgs : ∀ g ∈ gs, g.var? name = none
  · rw [assign_within hgs, assign_within hgs, assign_within hfs]
    exact ⟨outer.assign name value, gs, hlength, rfl, rfl⟩
  · obtain ⟨gs', hlength', hinside⟩ := assign_within_inside value hgs
    rw [hinside, hinside]
    exact ⟨outer, gs', hlength'.trans hlength, rfl, rfl⟩

end Inserted

end Scope

end ImpTree
