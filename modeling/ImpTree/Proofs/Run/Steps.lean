import ImpTree.Proofs.Scope.Names
import ImpTree.Run

/-!
# How the steps of a run compute

What a step comes to if its parts come to something known.

* `Eval.bind_of_done`, `Eval.bind_of_failed` — a computation and what follows it.
* `Eval.lookup_of_var?`, `Eval.declare_of_addVariable` — names that are found and declared.
* `Outcome.mapScope`, `Eval.inChild_apply`, `Eval.inCall_apply` — what becomes of the scope where a
  frame is entered and left.
* `Eval.loop_of_round` and its companions — one round of a loop.
* `Value.elementAt_list`, `Value.withElementAt_list` — an integer as the index into a list.
* `Expr.evaluate_binary` — an operator between two values.
* `assignTo_variable`, `assignTo_element`, `assignTo_immutable` — assignments, and
  `assignTo_eq_done`, those that succeed.
* `Stmt.executeCases_value`, `Stmt.executeCases_default` — the arms of a switch.
-/

namespace ImpTree

/-! ## Scopes that are left -/

section Scopes

variable {α : Type}

/-- The outcome with another scope in the state that it leaves. -/
def Outcome.mapScope (change : Scope → Scope) : Outcome α → Outcome α
  | .done a s => .done a { s with scope := change s.scope }
  | .failed e writes => .failed e writes
  | .unfinished => .unfinished

theorem Eval.inChild_apply (m : Eval α) (s : State) :
    Eval.inChild m s = (m { s with scope := s.scope.child }).mapScope Scope.leave := by
  rw [inChild]
  cases m { s with scope := s.scope.child } <;> rfl

theorem Eval.inCall_apply (m : Eval α) (s : State) :
    Eval.inCall m s = (m { s with scope := s.scope.global.child }).mapScope
      fun after => ⟨s.scope.inner, after.root⟩ := by
  rw [inCall]
  cases m { s with scope := s.scope.global.child } <;> rfl

end Scopes

/-! ## Computations -/

namespace Eval

variable {α β : Type} {m : Eval α} {f : α → Eval β} {state state' : State} {e : Error}
  {writes : List String} {a : α} {name : String} {span : Span}

/-- What follows a computation that ends goes on with its result. -/
theorem bind_of_done (h : m state = .done a state') : (m >>= f) state = f a state' := by
  rw [bind_apply, h]

/-- What follows a computation that fails does not happen. -/
theorem bind_of_failed (h : m state = .failed e writes) : (m >>= f) state = .failed e writes := by
  rw [bind_apply, h]

/-- What ends with a result has had a result to go on with. -/
theorem bind_eq_done {b : β} : (m >>= f) state = .done b state' ↔
    ∃ a s₁, m state = .done a s₁ ∧ f a s₁ = .done b state' := by
  constructor
  · intro h
    rw [bind_apply] at h
    cases hm : m state with
    | done a s₁ =>
      rw [hm] at h
      exact ⟨a, s₁, rfl, h⟩
    | failed e writes =>
      rw [hm] at h
      cases h
    | unfinished =>
      rw [hm] at h
      cases h
  · rintro ⟨a, s₁, hm, hf⟩
    rw [bind_of_done hm, hf]

@[simp]
theorem scope_apply : scope state = .done state.scope state := rfl

/-- A variable that is there is found. -/
theorem lookup_of_var? {v : Variable} (h : state.scope.var? name = some v) :
    lookup name span state = .done v state := by
  rw [lookup, bind_of_done scope_apply, Scope.findVariable_eq_ok.2 h]
  rfl

/-- A variable that is found is passed on. -/
theorem lookup_bind_of_var? {s : Scope} {v : Variable} {f : Variable → Eval β}
    (h : s.var? name = some v) : (lookup name span >>= f) ⟨s, writes⟩ = f v ⟨s, writes⟩ :=
  bind_of_done (lookup_of_var? h)

/-- Nothing is passed on where a name is unknown. -/
theorem lookup_bind_of_unknown {s : Scope} {f : Variable → Eval β} (h : s.var? name = none) :
    (lookup name span >>= f) ⟨s, writes⟩ = .failed (.unresolvedName name span) writes := by
  rw [lookup, bind_assoc, bind_of_done scope_apply, Scope.findVariable, h]
  rfl

/-- A variable that can be declared is declared. -/
theorem declare_of_addVariable {binding : VariableBinding} {value : Value} {after : Scope}
    (h : state.scope.addVariable binding value span = .ok after) :
    declare binding value span state = .done () { state with scope := after } := by
  rw [declare, bind_of_done scope_apply, h]
  rfl

/-! ### Frames -/

/-- A computation in a frame of its own fails if it fails there. -/
theorem inChild_of_failed (h : m { state with scope := state.scope.child } = .failed e writes) :
    inChild m state = .failed e writes := by
  simp only [inChild, h]

/-- A computation in a frame directly inside the root fails if it fails there. -/
theorem inCall_of_failed
    (h : m { state with scope := state.scope.global.child } = .failed e writes) :
    inCall m state = .failed e writes := by
  simp only [inCall, h]

/-! ### Loops -/

section Loops

variable {condition : Eval Bool} {body : Eval (Option α)} {rounds : Nat} {s s₁ s₂ : State}

/-- A loop fails with its condition. -/
theorem loop_of_condition_failed (h : condition s = .failed e writes) :
    loop condition body (rounds + 1) s = .failed e writes := by
  simp only [loop, h]

/-- A loop fails with its body. -/
theorem loop_of_body_failed (hcondition : condition s = .done true s₁)
    (hbody : body s₁ = .failed e writes) :
    loop condition body (rounds + 1) s = .failed e writes := by
  simp only [loop, hcondition, hbody]

/-- After a round, the loop goes on. -/
theorem loop_of_round (hcondition : condition s = .done true s₁)
    (hbody : body s₁ = .done none s₂) :
    loop condition body (rounds + 1) s = loop condition body rounds s₂ := by
  simp only [loop, hcondition, hbody]

end Loops

end Eval

/-! ## Elements of lists -/

section Elements

variable {items : List Value} {i : Int} {span : Span}

/-- What is found at a position of a list is one of its elements. -/
theorem Value.getD_mem {n : Nat} (h : n < items.length) : items.getD n .nil ∈ items := by
  rw [List.getD_eq_getElem?_getD, List.getElem?_eq_getElem h]
  exact List.getElem_mem h

/-- The element at an integer, if that is a position of the list. -/
theorem Value.elementAt_list :
    (Value.list items).elementAt (.integer i) span =
      if 0 ≤ i ∧ i < items.length then .ok (items.getD i.toNat .nil)
      else .error (.indexOutOfBounds (Integer.text i) items.length span) := by
  show ((Value.integer i).position items.length span >>= fun n => pure (items.getD n .nil)) = _
  rw [position]
  split <;> rfl

/-- The list with another element at an integer, if that is a position of the list. -/
theorem Value.withElementAt_list {new : Value} :
    (Value.list items).withElementAt (.integer i) new span =
      if 0 ≤ i ∧ i < items.length then .ok (.list (items.set i.toNat new))
      else .error (.indexOutOfBounds (Integer.text i) items.length span) := by
  show ((Value.integer i).position items.length span >>=
    fun n => pure (Value.list (items.set n new))) = _
  rw [position]
  split <;> rfl

end Elements

/-! ## Operators -/

/-- An operator other than `&&` and `||` is applied to the values of both operands. -/
theorem Expr.evaluate_binary {host : Host} {op : BinaryOp} {l r : Expr} {span : Span} {ty : Slot Ty}
    {s s₁ s₂ : State} {a b : Value} (hop : ¬(op = .and ∨ op = .or))
    (hl : l.evaluate host s = .done a s₁) (hr : r.evaluate host s₁ = .done b s₂) :
    (Expr.binary op l r span ty).evaluate host s = Eval.lift (op.apply a b span) s₂ := by
  rw [evaluate, Eval.bind_of_done hl, if_neg hop, Eval.bind_of_done hr]

/-! ## Assignments -/

section Assignments

variable {name : String} {value index : Value} {place span : Span} {s : State} {found : Variable}

/-- A mutable variable gets the new value. -/
theorem assignTo_variable (hfound : s.scope.var? name = some found)
    (hmutable : found.binding.isMutable = true) :
    assignTo name none value place span s =
      .done () { s with scope := s.scope.assign name value } := by
  rw [assignTo, Eval.bind_of_done (Eval.lookup_of_var? hfound), if_pos hmutable]
  rfl

/-- An element of a mutable list gets the new value. -/
theorem assignTo_element {new : Value} (hfound : s.scope.var? name = some found)
    (hmutable : found.binding.isMutable = true)
    (hnew : found.value.withElementAt index value place = .ok new) :
    assignTo name (some index) value place span s =
      .done () { s with scope := s.scope.assign name new } := by
  rw [assignTo, Eval.bind_of_done (Eval.lookup_of_var? hfound), if_pos hmutable]
  have hlift : Eval.lift (found.value.withElementAt index value place) s = .done new s := by
    rw [hnew]
    rfl
  exact Eval.bind_of_done hlift

/-- Without the list or the index, an assignment fails. -/
theorem assignTo_element_failed {e : Error} (hfound : s.scope.var? name = some found)
    (hmutable : found.binding.isMutable = true)
    (helement : found.value.withElementAt index value place = .error e) :
    assignTo name (some index) value place span s = .failed e s.writes := by
  rw [assignTo, Eval.bind_of_done (Eval.lookup_of_var? hfound), if_pos hmutable]
  have hlift : Eval.lift (found.value.withElementAt index value place) s = .failed e s.writes := by
    rw [helement]
    rfl
  exact Eval.bind_of_failed hlift

/-- An immutable variable does not get a new value, nor does an element of its list. -/
theorem assignTo_immutable {index : Option Value} (hfound : s.scope.var? name = some found)
    (himmutable : found.binding.isMutable = false) :
    assignTo name index value place span s =
      .failed (.invalidForm s!"cannot assign to immutable variable `{name}`" span) s.writes := by
  rw [assignTo, Eval.bind_of_done (Eval.lookup_of_var? hfound),
    if_neg (himmutable ▸ Bool.false_ne_true)]
  rfl

/-- **An assignment that succeeds**: the variable is there and mutable, and it gets the new value or
its list with another element. -/
theorem assignTo_eq_done {index : Option Value} {t : State} :
    assignTo name index value place span s = .done () t ↔
      ∃ found new, s.scope.var? name = some found ∧ found.binding.isMutable = true ∧
        (match index with
          | none => new = value
          | some i => found.value.withElementAt i value place = .ok new) ∧
        t = { s with scope := s.scope.assign name new } := by
  constructor
  · intro h
    cases hfound : s.scope.var? name with
    | none =>
      rw [assignTo, Eval.lookup_bind_of_unknown hfound] at h
      cases h
    | some found =>
      cases hmutable : found.binding.isMutable with
      | false =>
        rw [assignTo_immutable hfound hmutable] at h
        cases h
      | true =>
        cases index with
        | none =>
          rw [assignTo_variable hfound hmutable] at h
          cases h
          exact ⟨found, value, rfl, hmutable, rfl, rfl⟩
        | some i =>
          cases hnew : found.value.withElementAt i value place with
          | error e =>
            rw [assignTo_element_failed hfound hmutable hnew] at h
            cases h
          | ok new =>
            rw [assignTo_element hfound hmutable hnew] at h
            cases h
            exact ⟨found, new, rfl, hmutable, hnew, rfl⟩
  · rintro ⟨found, new, hfound, hmutable, hnew, rfl⟩
    cases index with
    | none =>
      obtain rfl := hnew
      exact assignTo_variable hfound hmutable
    | some i => exact assignTo_element hfound hmutable hnew

end Assignments

/-! ## Arms of a switch -/

section Arms

variable {host : Host} {condition : Value} {body : List Stmt} {span : Span} {rest : List Case}

/-- An arm with a value: its body, if the value fits, or else the arms after it. -/
theorem Stmt.executeCases_value {e : Expr} :
    Stmt.executeCases host condition (.mk (some e) body span :: rest) =
      e.evaluate host >>= fun value =>
        if value.same condition then Eval.inChild (Stmt.executeBlock host body)
        else Stmt.executeCases host condition rest := by
  rw [Stmt.executeCases, Case.execute]
  simp only [bind_assoc, pure_bind]
  congr 1
  funext value
  by_cases h : value.same condition = true
  · simp only [if_pos h, bind_assoc, pure_bind, bind_pure]
  · simp only [if_neg h, pure_bind]

/-- An arm without a value: its body. -/
theorem Stmt.executeCases_default :
    Stmt.executeCases host condition (.mk none body span :: rest) =
      Eval.inChild (Stmt.executeBlock host body) := by
  rw [Stmt.executeCases, Case.execute]
  simp only [bind_assoc, pure_bind, if_true, bind_pure]

end Arms

end ImpTree
