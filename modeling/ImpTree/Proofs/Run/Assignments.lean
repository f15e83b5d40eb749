import ImpTree.Proofs.Run.Discipline

/-!
# Assignments

An assignment changes one place: the innermost variable of the name, or one position of the list
that it holds.  Which list that is, and whether the position is one of it, is decided after the
index and the new value have been evaluated, which may change the variable.

* `Value.eq_of_withElementAt` — a list with another element at one position.
* `Stmt.Assigned` — what an assignment that succeeds leaves.
* `Program.assignment_exact` — **an assignment changes exactly one place**, and one to an element
  succeeds if and only if the index is a position of the list as it then is.
-/

namespace ImpTree

open Relation (ReflTransGen)

/-! ## Elements of lists -/

/-- A list with another element has it at the position of the index, and all others are as they
were. -/
theorem Value.eq_of_withElementAt {v index new w : Value} {span : Span}
    (h : v.withElementAt index new span = .ok w) :
    ∃ before old after, v = .list (before ++ old :: after) ∧ index = .integer before.length ∧
      w = .list (before ++ new :: after) := by
  cases v with
  | list items =>
    cases index with
    | integer i =>
      rw [withElementAt_list] at h
      split at h
      · rename_i hrange
        obtain ⟨n, rfl⟩ := Int.eq_ofNat_of_zero_le hrange.1
        have hn : n < items.length := Int.ofNat_lt.1 hrange.2
        obtain ⟨before, after, hitems, hlength, hset⟩ :
            ∃ before after, items = before ++ items[n] :: after ∧ before.length = n ∧
              items.set n new = before ++ new :: after := List.exists_of_set hn
        refine ⟨before, items[n], after, congrArg _ hitems, by rw [hlength], ?_⟩
        cases h
        exact congrArg _ hset
      · cases h
    | _ => cases h
  | _ => cases h

/-! ## Assignments that succeed -/

/-- What an assignment that succeeds leaves: the state after the index, if there is one, and the new
value have been evaluated, but for one place. -/
inductive Stmt.Assigned (host : Host) : Expr → Expr → State → State → Prop where
  /-- The innermost variable of the name has the new value. -/
  | variable {name binding place ty} {value : Expr} {s s₁ t : State} {old new : Value}
      (hvalue : value.evaluate host s = .done new s₁)
      (hscope : s₁.scope.Replaced name old new t.scope) (hwrites : t.writes = s₁.writes) :
      Assigned host (.var name binding place ty) value s t
  /-- The list in the innermost variable of the name has the new element at the index. -/
  | element {name binding place ty} {offset value : Expr} {s s₁ s₂ t : State} {index : Int}
      {before after : List Value} {old new : Value}
      (hoffset : offset.evaluate host s = .done (.integer index) s₁)
      (hvalue : value.evaluate host s₁ = .done new s₂) (hindex : index = before.length)
      (hscope : s₂.scope.Replaced name (.list (before ++ old :: after))
        (.list (before ++ new :: after)) t.scope) (hwrites : t.writes = s₂.writes) :
      Assigned host (.element name offset binding place ty) value s t

section Assignments

variable {host : Host} {s t : State}

/-- A scope stays lexical where an expression is evaluated. -/
theorem Expr.lexical_of_evaluate (h : host.Acts Scope.Steady) {e : Expr} {v : Value}
    (hs : s.scope.Lexical) (he : e.evaluate host s = .done v t) : t.scope.Lexical :=
  ((Expr.evaluate_steady h e).of_done he hs).1

/-- **An assignment that succeeds changes one place**, and lets the next statement follow. -/
theorem Stmt.assigned_of_execute (h : host.Acts Scope.Steady) {receiver value : Expr} {span : Span}
    {flow : Flow} (hs : s.scope.Lexical)
    (hend : (Stmt.assignment receiver value span).execute host s = .done flow t) :
    flow = none ∧ Stmt.Assigned host receiver value s t := by
  cases receiver with
  | var name binding place ty =>
    rw [execute] at hend
    simp only [Eval.bind_eq_done] at hend
    obtain ⟨new, s₁, hvalue, _, s₂, hassign, hend⟩ := hend
    cases hend
    obtain ⟨found, _, hfound, hmutable, rfl, rfl⟩ := assignTo_eq_done.1 hassign
    have hreplaced := Scope.Replaced.assign (Expr.lexical_of_evaluate h hs hvalue) hfound hmutable
    exact ⟨rfl, .variable hvalue (hreplaced _) rfl⟩
  | element name offset binding place ty =>
    rw [execute] at hend
    simp only [Eval.bind_eq_done] at hend
    obtain ⟨index, s₁, hoffset, new, s₂, hvalue, _, s₃, hassign, hend⟩ := hend
    cases hend
    obtain ⟨found, list, hfound, hmutable, hlist, rfl⟩ := assignTo_eq_done.1 hassign
    obtain ⟨before, old, after, hold, rfl, rfl⟩ := Value.eq_of_withElementAt hlist
    have hlexical := Expr.lexical_of_evaluate h (Expr.lexical_of_evaluate h hs hoffset) hvalue
    have hreplaced := Scope.Replaced.assign hlexical hfound hmutable
      (.list (before ++ new :: after))
    rw [hold] at hreplaced
    exact ⟨rfl, .element hoffset hvalue rfl hreplaced rfl⟩
  | _ => exact absurd (show Outcome.failed _ _ = Outcome.done flow t from hend) nofun

/-- Once the index and the new value are evaluated, an assignment to an element of a list depends on
the index alone: it succeeds, or the index is out of bounds. -/
theorem Stmt.execute_assignment_element {name : String} {offset value : Expr}
    {binding : Slot VariableBinding} {place span : Span} {ty : Slot Ty} {index : Int} {new : Value}
    {s₁ s₂ : State} {found : Variable} {items : List Value}
    (hoffset : offset.evaluate host s = .done (.integer index) s₁)
    (hvalue : value.evaluate host s₁ = .done new s₂) (hfound : s₂.scope.var? name = some found)
    (hmutable : found.binding.isMutable = true) (hitems : found.value = .list items) :
    (Stmt.assignment (.element name offset binding place ty) value span).execute host s =
      if 0 ≤ index ∧ index < items.length then
        .done none
          { s₂ with scope := s₂.scope.assign name (.list (items.set index.toNat new)) }
      else
        .failed (.indexOutOfBounds (Integer.text index) items.length place) s₂.writes := by
  have helement : (Value.list items).withElementAt (.integer index) new place = _ :=
    Value.withElementAt_list
  rw [execute, Eval.bind_of_done hoffset, Eval.bind_of_done hvalue]
  split
  · rename_i hrange
    rw [if_pos hrange, ← hitems] at helement
    exact Eval.bind_of_done (assignTo_element hfound hmutable helement)
  · rename_i hrange
    rw [if_neg hrange, ← hitems] at helement
    exact Eval.bind_of_failed (assignTo_element_failed hfound hmutable helement)

end Assignments

/-! ## Programs -/

namespace Program

/-- **An assignment changes exactly one place.**  In every scope that arises in a run, an assignment
that succeeds leaves the scope that the evaluation of the index, if there is one, and then of the
new value has left, but for the innermost variable of the name, which is mutable: it has the new
value or, at the index, an element of its list has, which is one of those that the list then has.
And if both evaluations end, the index with an integer, and the variable then is there, is mutable
and holds a list, the assignment succeeds if the integer is a position of this list, and is out of
the bounds of this list if it is not. -/
theorem assignment_exact (p : Program) (scope : Scope) (hscope : p.Arises scope) :
    (∀ sink rounds writes receiver value span flow t,
      (Stmt.assignment receiver value span).execute (p.host sink rounds) ⟨scope, writes⟩ =
          .done flow t →
        flow = none ∧
          Stmt.Assigned (p.host sink rounds) receiver value ⟨scope, writes⟩ t) ∧
    ∀ sink rounds writes name offset binding place ty value span index s₁ new s₂ found items,
      offset.evaluate (p.host sink rounds) ⟨scope, writes⟩ = .done (.integer index) s₁ →
      value.evaluate (p.host sink rounds) s₁ = .done new s₂ →
      s₂.scope.var? name = some found → found.binding.isMutable = true →
      found.value = .list items →
        (0 ≤ index ∧ index < items.length → ∃ t,
          (Stmt.assignment (.element name offset binding place ty) value span).execute
            (p.host sink rounds) ⟨scope, writes⟩ = .done none t) ∧
        (¬(0 ≤ index ∧ index < items.length) →
          (Stmt.assignment (.element name offset binding place ty) value span).execute
              (p.host sink rounds) ⟨scope, writes⟩ =
            .failed (.indexOutOfBounds (Integer.text index) items.length place) s₂.writes) := by
  refine ⟨fun sink rounds writes receiver value span flow t hend =>
    Stmt.assigned_of_execute (p.host_steady sink rounds) hscope.lexical hend, ?_⟩
  intro sink rounds writes name offset binding place ty value span index s₁ new s₂ found items
    hoffset hvalue hfound hmutable hitems
  rw [Stmt.execute_assignment_element hoffset hvalue hfound hmutable hitems]
  exact ⟨fun hrange => ⟨_, if_pos hrange⟩, fun hrange => if_neg hrange⟩

/-- A program in which the new value of an element comes from a function that replaces the list,
after `main` has given a copy of it to a variable of its own. -/
def relisting : Program :=
  ⟨[Build.global "xs" true none
      (some (Build.list [Build.literal (.integer 1), Build.literal (.integer 2)]))],
    [Build.function "main" [] none
      [Build.declaration "ys" none (some (Build.var "xs")),
        Build.assignment (Build.element "xs" (Build.literal (.integer 2)))
          (Build.call "relist" [])],
      Build.function "relist" [] (some "Integer")
        [Build.assignment (Build.var "xs")
            (Build.list [Build.literal (.integer 7), Build.literal (.integer 8),
              Build.literal (.integer 9)]),
          Build.ret (Build.literal (.integer 5))]]⟩

/-- The scope of the program, when all is declared, with this list and these frames inside the
root. -/
def relistingScope (xs : List Value) (inner : List Frame) : Scope :=
  ⟨inner, ⟨[⟨⟨"xs", .any, true⟩, .list xs⟩],
    ⟨⟨"relist", [], .any⟩, .declared 1⟩ :: ⟨⟨"main", [], .any⟩, .declared 0⟩ ::
      Scope.initial.root.callees⟩⟩

/-- The frame of `main`, after its declaration. -/
def relistingFrame : Frame := ⟨[⟨⟨"ys", .any, true⟩, .list [.integer 1, .integer 2]⟩], []⟩

/-- The third element of the longer list is the one that changes, and the copy of the shorter list
does not; a negative index is out of the bounds of the longer list. -/
theorem assignment_exact_relisting :
    relisting.Arises (relistingScope [.integer 1, .integer 2] [relistingFrame]) ∧
      Stmt.Assigned (relisting.host .unbounded 1) (Build.element "xs" (Build.literal (.integer 2)))
        (Build.call "relist" [])
        ⟨relistingScope [.integer 1, .integer 2] [relistingFrame], []⟩
        ⟨relistingScope [.integer 7, .integer 8, .integer 5] [relistingFrame], []⟩ ∧
      (Build.assignment (Build.element "xs" (Build.literal (.integer (-1))))
          (Build.call "relist" [])).execute (relisting.host .unbounded 1)
          ⟨relistingScope [.integer 1, .integer 2] [relistingFrame], []⟩ =
        .failed (.indexOutOfBounds "-1" 3 .nowhere) [] := by
  have hglobals : relisting.Ends .unbounded (fun host => declareGlobals host relisting.globals)
      ⟨.initial, []⟩ ()
      ⟨(relistingScope [.integer 1, .integer 2] []).withCallees Scope.initial.root.callees, []⟩ :=
    ⟨0, by cbv⟩
  have hmain : relisting.Step .unbounded .start
      ⟨.call 0 [], ⟨relistingScope [.integer 1, .integer 2] [], []⟩, relisting.known, []⟩ :=
    .main hglobals (by cbv) (by cbv)
  have hbody : relisting.Step .unbounded
      ⟨.call 0 [], ⟨relistingScope [.integer 1, .integer 2] [], []⟩, relisting.known, []⟩
      ⟨.block _, ⟨relistingScope [.integer 1, .integer 2] [⟨[], []⟩], []⟩, _, _⟩ := .body rfl rfl
  have hdeclared : relisting.Ends .unbounded
      (fun host => (Build.declaration "ys" none (some (Build.var "xs"))).execute host)
      ⟨relistingScope [.integer 1, .integer 2] [⟨[], []⟩], []⟩ none
      ⟨relistingScope [.integer 1, .integer 2] [relistingFrame], []⟩ := ⟨0, by cbv⟩
  have harises : relisting.Arises (relistingScope [.integer 1, .integer 2] [relistingFrame]) :=
    ⟨_, _, ((ReflTransGen.single hmain).tail hbody).tail (.nextStmts hdeclared), rfl⟩
  have hexact := assignment_exact relisting _ harises
  have hend : (Build.assignment (Build.element "xs" (Build.literal (.integer 2)))
      (Build.call "relist" [])).execute (relisting.host .unbounded 1)
        ⟨relistingScope [.integer 1, .integer 2] [relistingFrame], []⟩ =
      .done none ⟨relistingScope [.integer 7, .integer 8, .integer 5] [relistingFrame], []⟩ := by
    cbv
  have hbounds := hexact.2 .unbounded 1 [] "xs" (Build.literal (.integer (-1))) none .nowhere none
    (Build.call "relist" []) .nowhere (-1) _ _ _ _ _ rfl
    (show _ = Outcome.done (.integer 5)
      ⟨relistingScope [.integer 7, .integer 8, .integer 9] [relistingFrame], []⟩ by cbv) rfl rfl rfl
  exact ⟨harises, (hexact.1 _ _ _ _ _ _ _ _ hend).2, hbounds.2 (by decide)⟩

end Program

end ImpTree
