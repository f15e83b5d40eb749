import ImpTree.Proofs.Scope.Names

/-!
# The values in a scope

All values that the variables of a scope hold, hidden ones included, and what the operations on a
scope do to them: a value that is there afterwards was there before, or has just been brought in.

* `Frame.values`, `Scope.values` — the values.
* `Scope.mem_values_withVariable`, `Scope.values_assign` — the operations that bring a value in.
-/

namespace ImpTree

/-- The values of the variables of a frame. -/
def Frame.values (f : Frame) : List Value := f.vars.map Variable.value

/-- The values of the variables of a scope, frame by frame. -/
def Scope.values (s : Scope) : List Value := s.frames.flatMap Frame.values

/-- After an assignment a frame holds the new value beside values that it held before. -/
theorem Frame.values_assign (f : Frame) (name : String) (new : Value) :
    (f.assign name new).values ⊆ new :: f.values := by
  intro v hv
  simp only [values, assign, List.map_map, List.mem_map] at hv
  obtain ⟨x, hx, rfl⟩ := hv
  show (if x.binding.name == name then { x with value := new } else x).value ∈ new :: f.values
  split
  · exact List.mem_cons_self
  · exact List.mem_cons_of_mem _ (List.mem_map_of_mem hx)

namespace Scope

variable {s : Scope} {name : String} {v new : Value}

theorem mem_values : v ∈ s.values ↔ (∃ f ∈ s.inner, v ∈ f.values) ∨ v ∈ s.root.values := by
  simp only [values, frames, List.mem_flatMap, List.mem_append, List.mem_singleton, or_and_right,
    exists_or, exists_eq_left]

/-! ## Frames -/

@[simp]
theorem values_initial : initial.values = [] := rfl

@[simp]
theorem values_child (s : Scope) : s.child.values = s.values := rfl

theorem values_leave (s : Scope) : s.leave.values ⊆ s.values := by
  intro v hv
  rw [mem_values] at hv ⊢
  exact hv.imp_left fun ⟨f, hf, hfv⟩ => ⟨f, List.mem_of_mem_drop hf, hfv⟩

theorem values_global (s : Scope) : s.global.values ⊆ s.values := by
  intro v hv
  rw [mem_values] at hv ⊢
  exact .inr (hv.resolve_left fun ⟨f, hf, _⟩ => nomatch hf)

/-- Inner frames of one scope around the root of another. -/
theorem values_restore (s t : Scope) : (Scope.mk s.inner t.root).values ⊆ s.values ++ t.values := by
  intro v hv
  rw [List.mem_append, mem_values, mem_values]
  exact (mem_values.1 hv).elim (fun h => .inl (.inl h)) fun h => .inr (.inr h)

/-! ## Names -/

/-- A variable that is found holds one of the values. -/
theorem value_mem_values {found : Variable} (h : s.var? name = some found) :
    found.value ∈ s.values := by
  obtain ⟨f, hf, hfound⟩ := List.exists_of_findSome?_eq_some h
  exact List.mem_flatMap.2 ⟨f, hf, List.mem_map_of_mem (List.mem_of_find?_eq_some hfound)⟩

/-- A variable that is declared brings its value in. -/
theorem values_withVariable (s : Scope) (x : Variable) :
    (s.withVariable x).values = x.value :: s.values := by
  obtain ⟨_ | ⟨f, rest⟩, root⟩ := s <;> rfl

/-- A function that is declared brings no value in. -/
theorem values_withCallee (s : Scope) (c : Callee) : (s.withCallee c).values = s.values := by
  obtain ⟨_ | ⟨f, rest⟩, root⟩ := s <;> rfl

/-- An assignment brings the new value in. -/
theorem values_assign (s : Scope) (name : String) (new : Value) :
    (s.assign name new).values ⊆ new :: s.values := by
  obtain ⟨inner, root⟩ := s
  intro v hv
  rw [List.mem_cons, mem_values]
  rw [mem_values, assign] at hv
  induction inner with
  | nil =>
    rcases hv with ⟨f, hf, -⟩ | hv
    · cases hf
    · exact (List.mem_cons.1 (Frame.values_assign root name new hv)).imp_right .inr
  | cons f rest ih =>
    simp only [assignIn] at hv
    split at hv
    · simp only [List.mem_cons, exists_eq_or_imp] at hv ⊢
      rcases hv with (hv | hv) | hv
      · exact (List.mem_cons.1 (Frame.values_assign f name new hv)).imp_right fun h => .inl (.inl h)
      · exact .inr (.inl (.inr hv))
      · exact .inr (.inr hv)
    · simp only [List.mem_cons, exists_eq_or_imp] at hv ⊢
      rcases hv with (hv | hv) | hv
      · exact .inr (.inl (.inl hv))
      · exact (ih (.inl hv)).imp_right (·.imp_left .inr)
      · exact (ih (.inr hv)).imp_right (·.imp_left .inr)

end Scope

end ImpTree
