import ImpTree.Feedback
import ImpTree.Proofs.Annotations.Justified
import ImpTree.Proofs.Lists.Accesses
import ImpTree.Proofs.Lists.Runs
import ImpTree.Proofs.Typing.Runs
import ImpTree.Tree.Build

/-!
# Checked programs have no empty lists

The checker accepts no empty list expression, so no empty list comes into a run of a checked
program, wherever one looks: in a variable, inside another list, as an argument, as a result.  An
index that is out of bounds is then one of a list with elements, and the positions that its report
offers are the ones of this list.

* `Task.remaining`, `Task.given` — what is left to evaluate, and the values that wait to be used.
* `Moment.EmptyFree`, `Moment.EmptyFree.step` — the invariant of a moment, **preserved by a step**.
* `Moment.Occurs` — the values that occur at a moment.
* `Program.lists_nonempty` — **lists of checked programs have elements, and errors of bounds are
  truthful.**
-/

namespace ImpTree

variable {p : Program} {sink : Sink}

/-! ## What is left to do -/

/-- The expressions that a task may evaluate itself, without those of the functions it calls. -/
def Task.remaining : Task → List Expr
  | .globals rest => rest.flatMap fun g => Expr.optionParts g.value
  | .block stmts => Stmt.blockExprs stmts
  | .stmt one => one.exprs
  | .cases _ arms => Stmt.casesExprs arms
  | .exprs es => Expr.allParts es
  | .expr e => e.parts
  | .program | .call .. | .finished => []

/-- The values that a task has been given: arguments, and what a switch looks for. -/
def Task.given : Task → List Value
  | .call _ arguments => arguments
  | .cases condition _ => [condition]
  | .program | .globals _ | .block _ | .stmt _ | .exprs _ | .expr _ | .finished => []

/-- A step goes on with expressions of its task, or of the program. -/
theorem Program.Step.remaining {m m' : Moment} (hstep : p.Step sink m m') :
    m'.task.remaining ⊆ m.task.remaining ++ p.exprs := by
  intro x hx
  rw [List.mem_append]
  cases hstep with
  | globals => exact .inr (List.mem_append_left _ hx)
  | body hf _ =>
    exact .inr (List.mem_append_right _ (List.mem_flatMap.2 ⟨_, List.mem_of_getElem? hf, hx⟩))
  | globalValue hvalue =>
    refine .inl (List.mem_flatMap.2 ⟨_, List.mem_cons_self, ?_⟩)
    rw [hvalue]
    exact hx
  | again _ _ => exact .inl hx
  | main _ _ _ | callee _ _ _ | callFinished _ | exprFinished _ | stmtFinished _ => cases hx
  | _ =>
    -- what is next is a part of the task, or comes after its first part
    simp only [Task.remaining, List.flatMap_cons, Stmt.blockExprs, Stmt.exprs, Stmt.casesExprs,
      Expr.allParts, Expr.optionParts, Expr.parts, List.mem_append, List.mem_cons] at hx ⊢
    tauto

/-! ## Moments -/

/-- What an ended computation leaves is without empty lists, if it keeps scopes so. -/
theorem Program.Ends.keeps {α : Type} {m : Host → Eval α} {post : α → Prop} {s s₁ : State} {a : α}
    (h : p.Ends sink m s a s₁) (hp : ∀ x ∈ p.exprs, x.HasElements)
    (hm : ∀ host : Host, host.Keeps → (m host).Keeps post) (hs : s.scope.EmptyFree) :
    post a ∧ s₁.scope.EmptyFree := by
  obtain ⟨rounds, h⟩ := h
  exact (hm _ (p.host_keeps hp sink rounds) s hs).of_done h

/-- There is no empty list at the moment, and none will be made of what is left to do. -/
structure Moment.EmptyFree (m : Moment) : Prop where
  /-- List expressions have elements. -/
  remaining : ∀ x ∈ m.task.remaining, x.HasElements
  /-- The task was given no empty list. -/
  given : ∀ v ∈ m.task.given, v.EmptyFree
  /-- No variable holds one. -/
  scope : m.state.scope.EmptyFree
  /-- Nor does a variable of a function that waits. -/
  waiting : ∀ w ∈ m.waiting, ∀ f ∈ w.actual, ∀ v ∈ f.values, v.EmptyFree

namespace Moment.EmptyFree

variable {m m' : Moment} {e : Expr} {v : Value} {s₁ : State}

theorem start : Moment.start.EmptyFree :=
  ⟨List.forall_mem_nil _, List.forall_mem_nil _, .initial, List.forall_mem_nil _⟩

section Steps

variable (hp : ∀ x ∈ p.exprs, x.HasElements)

include hp

/-- List expressions have elements after a step. -/
theorem remaining_step (hm : m.EmptyFree) (hstep : p.Step sink m m') :
    ∀ x ∈ m'.task.remaining, x.HasElements :=
  fun x hx => (List.mem_append.1 (hstep.remaining hx)).elim (hm.remaining x) (hp x)

/-- The value of an expression that a step goes on with, and the state after it. -/
theorem value_step (hm : m.EmptyFree) {known : Scope} {waiting : List Waiting}
    (hstep : p.Step sink m ⟨.expr e, m.state, known, waiting⟩)
    (hends : p.Ends sink (fun host => e.evaluate host) m.state v s₁) :
    v.EmptyFree ∧ s₁.scope.EmptyFree :=
  hends.keeps hp (fun _ hhost => e.evaluate_keeps hhost (hm.remaining_step hp hstep)) hm.scope

/-- Variables and what the task is given are without empty lists after a step: what came before the
step has ended, and kept them so. -/
theorem scope_step (hm : m.EmptyFree) (hstep : p.Step sink m m') :
    m'.state.scope.EmptyFree ∧ ∀ v ∈ m'.task.given, v.EmptyFree := by
  -- most tasks are given nothing
  have hnone : ∀ v ∈ ([] : List Value), v.EmptyFree := List.forall_mem_nil _
  cases hstep with
  | main hglobals hfunctions _ =>
    have hkept := hglobals.keeps hp (fun _ hhost => declareGlobals_keeps hhost
      fun x hx => hp x (List.mem_append_left _ hx)) hm.scope
    exact ⟨((declareFunctions_keeps p.functions 0 _ hkept.2).of_done hfunctions).2, hnone⟩
  | @nextGlobal g rest v s s₁ s₂ known waiting hvalue hdeclare =>
    have hparts := hm.remaining
    rw [Task.remaining, List.flatMap_cons, List.forall_mem_append] at hparts
    obtain ⟨hv, hs₁⟩ := hvalue.keeps hp (fun _ hhost =>
      Expr.evaluateOption_keeps hhost g.value hparts.1) hm.scope
    exact ⟨((Eval.Keeps.declare _ hv g.span _ hs₁).of_done hdeclare).2, hnone⟩
  | @body index arguments f s s₁ known waiting _ harguments =>
    have hdeclared := Eval.Keeps.declareArguments f.span f.parameters hm.given s.enterCall
      hm.scope.enterCall
    exact ⟨(hdeclared.of_done harguments).2, hnone⟩
  | nextStmts hstmt =>
    have hstmts := hm.remaining
    rw [Task.remaining, Stmt.blockExprs, List.forall_mem_append] at hstmts
    exact ⟨(hstmt.keeps hp (fun _ hhost => Stmt.execute_keeps hhost _ hstmts.1) hm.scope).2, hnone⟩
  | assignedElement h => exact ⟨(hm.value_step hp .assignedOffset h).2, hnone⟩
  | thenBody h | elseBody h => exact ⟨(hm.value_step hp .ifCondition h).2.child, hnone⟩
  | arms h =>
    obtain ⟨hv, hs₁⟩ := hm.value_step hp .switchCondition h
    exact ⟨hs₁, List.forall_mem_singleton.2 hv⟩
  | whileBody h => exact ⟨(hm.value_step hp .whileCondition h).2.child, hnone⟩
  | again hcondition hbody =>
    have hs₁ := (hm.value_step hp .whileCondition hcondition).2
    have hround := hbody.keeps hp (fun _ hhost => (Stmt.executeBlock_keeps hhost _
      (hm.remaining_step hp (.whileBody hcondition))).inChild) hs₁
    exact ⟨hround.2, hnone⟩
  | armBody h _ => exact ⟨(hm.value_step hp .armValue h).2.child, hnone⟩
  | nextArms h _ => exact ⟨(hm.value_step hp .armValue h).2, hm.given⟩
  | defaultBody => exact ⟨hm.scope.child, hnone⟩
  | nextExprs h => exact ⟨(hm.value_step hp .firstExpr h).2, hnone⟩
  | undecided _ h _ | right _ h => exact ⟨(hm.value_step hp .left h).2, hnone⟩
  | callee harguments _ _ =>
    have hparts := hm.remaining
    rw [Task.remaining, Expr.parts, List.forall_mem_cons] at hparts
    obtain ⟨⟨-, hvalues⟩, hs₁⟩ := harguments.keeps hp (fun _ hhost =>
      Expr.evaluateAll_keeps hhost _ hparts.2) hm.scope
    exact ⟨hs₁, hvalues⟩
  | callFinished h =>
    exact ⟨(h.keeps hp (fun _ hhost => hhost _ _ hm.given) hm.scope).2, hnone⟩
  | exprFinished h =>
    exact ⟨(h.keeps hp (fun _ hhost => Expr.evaluate_keeps hhost _ hm.remaining) hm.scope).2, hnone⟩
  | stmtFinished h =>
    exact ⟨(h.keeps hp (fun _ hhost => Stmt.execute_keeps hhost _ hm.remaining) hm.scope).2, hnone⟩
  | _ => exact ⟨hm.scope, hnone⟩

/-- **A step preserves the invariant.** -/
theorem step (hm : m.EmptyFree) (hstep : p.Step sink m m') : m'.EmptyFree := by
  obtain ⟨hscope, hvalues⟩ := hm.scope_step hp hstep
  refine ⟨hm.remaining_step hp hstep, hvalues, hscope, ?_⟩
  cases hstep with
  | body _ _ =>
    -- the frames of the caller stood in the scope before
    refine List.forall_mem_cons.2 ⟨fun f hf v hv => ?_, hm.waiting⟩
    exact hm.scope v (Scope.mem_values.2 (.inl ⟨f, hf, hv⟩))
  | _ => exact hm.waiting

/-- **So does a whole run.** -/
theorem of_reaches (hm : p.Reaches sink m) : m.EmptyFree := by
  induction hm with
  | refl => exact start
  | tail _ hstep ih => exact ih.step hp hstep

end Steps

end Moment.EmptyFree

/-! ## Values that occur -/

/-- The value occurs at a moment of a run: in a variable, among what the task was given, as what it
comes to, or inside such a value. -/
inductive Moment.Occurs (p : Program) (sink : Sink) (m : Moment) : Value → Prop where
  /-- A variable holds it. -/
  | stored {v} (hv : v ∈ m.state.scope.values) : Occurs p sink m v
  /-- A variable of a function that waits for a call holds it. -/
  | waiting {w f v} (hw : w ∈ m.waiting) (hf : f ∈ w.actual) (hv : v ∈ f.values) : Occurs p sink m v
  /-- It is an argument of the call, or what the switch looks for. -/
  | given {v} (hv : v ∈ m.task.given) : Occurs p sink m v
  /-- It is the value of the expression. -/
  | evaluated {e v s} (he : m.task = .expr e)
      (h : p.Ends sink (fun host => e.evaluate host) m.state v s) : Occurs p sink m v
  /-- The statement ends the function with it. -/
  | returned {stmt v s} (hstmt : m.task = .stmt stmt)
      (h : p.Ends sink (fun host => stmt.execute host) m.state (some v) s) : Occurs p sink m v
  /-- It is the result of the call. -/
  | result {index arguments v s} (hcall : m.task = .call index arguments)
      (h : p.Ends sink (fun host => host.call index arguments) m.state v s) : Occurs p sink m v
  /-- It is an element of a list that occurs. -/
  | item {items v} (hlist : Occurs p sink m (.list items)) (hv : v ∈ items) : Occurs p sink m v

/-- Every value that occurs is without empty lists. -/
theorem Moment.Occurs.emptyFree {m : Moment} {v : Value} (hp : ∀ x ∈ p.exprs, x.HasElements)
    (hm : m.EmptyFree) (h : m.Occurs p sink v) : v.EmptyFree := by
  induction h with
  | stored hv => exact hm.scope _ hv
  | waiting hw hf hv => exact hm.waiting _ hw _ hf _ hv
  | given hv => exact hm.given _ hv
  | @evaluated e v s he h =>
    have hparts := hm.remaining
    rw [he] at hparts
    exact (h.keeps hp (fun _ hhost => e.evaluate_keeps hhost hparts) hm.scope).1
  | @returned stmt v s hstmt h =>
    have hexprs := hm.remaining
    rw [hstmt] at hexprs
    exact (h.keeps hp (fun _ hhost => stmt.execute_keeps hhost hexprs) hm.scope).1 v rfl
  | result hcall h =>
    have hvalues := hm.given
    rw [hcall] at hvalues
    exact (h.keeps hp (fun _ hhost => hhost _ _ hvalues) hm.scope).1
  | item _ hv ih => exact (Value.emptyFree_list.1 ih).2 _ hv

/-- The report of an index that is out of bounds offers one range. -/
theorem Report.messages_indexOutOfBounds (index : String) (length : Nat) (span : Span)
    (file : String) :
    (Report.ofError (.indexOutOfBounds index length span) file).suggestions.map
      Suggestion.message = [s!"Valid indices for this list are 0 to {length - 1}"] := by
  simp only [ofError, sorted, Error.suggestions, List.mergeSort_singleton]
  rfl

/-! ## Checked programs -/

/-- The checker accepts no empty list expression. -/
theorem Program.Typed.hasElements {types : TypeNames} {missing : Prop} {early known : Scope}
    (h : p.Typed types True missing early known) : ∀ x ∈ p.exprs, x.HasElements := by
  intro x hx
  rw [← p.exprs_places, List.mem_map] at hx
  obtain ⟨⟨view, e⟩, hplace, rfl⟩ := hx
  have hjustified := h.annotations.2 _ hplace
  cases e with
  | list elements span ty => exact hjustified.1
  | _ => trivial

namespace Program

/-- A list that is accessed at a moment without empty lists has elements. -/
theorem Accesses.ne_nil {m : Moment} {items : List Value} {i : Int} {place : Span}
    (hp : ∀ x ∈ p.exprs, x.HasElements) (hm : m.EmptyFree)
    (h : p.Accesses sink m.task m.state items i place) : items ≠ [] := by
  obtain ⟨task, s, known, waiting⟩ := m
  cases h with
  | @read name offset binding _ ty _ _ _ _ _ hoffset hfound hlist =>
    have hstep : p.Step sink ⟨.expr (.element name offset binding place ty), s, known, waiting⟩
        ⟨.expr offset, s, known, waiting⟩ := .offset
    have hnext := hm.step hp hstep
    have hs₁ := (hoffset.keeps hp (fun _ hhost => Expr.evaluate_keeps hhost _ hnext.remaining)
      hnext.scope).2
    exact (Value.emptyFree_list.1 (hlist ▸ hs₁ _ (Scope.value_mem_values hfound))).1
  | write hoffset hvalue hfound _ hlist =>
    have hnext := hm.step hp (.assignedElement hoffset)
    have hs₂ := (hvalue.keeps hp (fun _ hhost => Expr.evaluate_keeps hhost _ hnext.remaining)
      hnext.scope).2
    exact (Value.emptyFree_list.1 (hlist ▸ hs₂ _ (Scope.value_mem_values hfound))).1

/-- **Lists of checked programs have elements, and errors of bounds are truthful.**  In every run of
a program that the checker accepts, with no slot filled before: every list that occurs has elements;
and if the run fails with an index that is out of bounds, then it has come to a moment that accesses
a list and fails so, after the same writes.  That list has elements, the length is its length, the
index is written as the integer at which it is accessed, and this is none of its positions; and the
report offers the range from 0 to one less than the length, which are exactly the indices at which
this very list can be read. -/
theorem lists_nonempty {types : TypeNames} {p : Program} (hfresh : p.IsFresh)
    (haccepted : (p.analyze types).verdict = .ok ()) (sink : Sink) :
    let q := (p.analyze types).node
    (∀ m, q.Reaches sink m → ∀ items, m.Occurs q sink (.list items) → items ≠ []) ∧
    ∀ rounds writes index length span,
      q.runWithin rounds sink = some ⟨.error (.indexOutOfBounds index length span), writes⟩ →
        ∃ m items i, q.Reaches sink m ∧ q.Accesses sink m.task m.state items i span ∧
          m.task.Raises q sink m.state (.indexOutOfBounds index length span) writes.reverse ∧
          1 ≤ length ∧ length = items.length ∧ index = Integer.text i ∧
          (i < 0 ∨ (items.length : Int) ≤ i) ∧
          (∀ file, (Report.ofError (.indexOutOfBounds index length span) file).suggestions.map
            Suggestion.message = [s!"Valid indices for this list are 0 to {length - 1}"]) ∧
          ∀ (j : Int) (place : Span), (0 ≤ j ∧ j ≤ (length - 1 : Nat)) ↔
            ∃ v, (Value.list items).elementAt (.integer j) place = .ok v := by
  intro q
  have hrules : ∃ early known, q.Typed types True True early known :=
    typed_of_analyze haccepted fun _ => hfresh
  obtain ⟨early, known, htyped⟩ := hrules
  have hp := htyped.hasElements
  refine ⟨fun m hm items hitems => ?occurs, fun rounds writes index length span hrun => ?bounds⟩
  case occurs => exact (Value.emptyFree_list.1 (hitems.emptyFree hp (.of_reaches hp hm))).1
  case bounds =>
    obtain ⟨m, hm, hexceeds, hraises⟩ := q.exists_exceeds hrun
    cases hexceeds with
    | @intro items i _ haccess houtside =>
      have hpos : 1 ≤ items.length :=
        List.length_pos_iff.2 (haccess.ne_nil hp (.of_reaches hp hm))
      refine ⟨m, items, i, hm, haccess, hraises, hpos, rfl, rfl, houtside,
        Report.messages_indexOutOfBounds _ _ span, fun j place => ?_⟩
      rw [Value.exists_elementAt]
      omega

/-- A program that reads behind the end of a list inside a list. -/
def overreaching : Program :=
  ⟨[Build.global "rows" false none
      (some (Build.list [Build.list [Build.literal (.integer 1)],
        Build.list [Build.literal (.integer 2), Build.literal (.integer 3)]]))],
    [Build.function "main" [] (some "Integer")
      [Build.declaration "row" none (some (Build.element "rows" (Build.literal (.integer 1)))),
        Build.ret (Build.element "row" (Build.literal (.integer 2)))]]⟩

/-- The list that is read has two elements, and the report offers their positions. -/
theorem lists_nonempty_overreaching :
    let q := (overreaching.analyze .builtin).node
    overreaching.IsFresh ∧ (overreaching.analyze .builtin).verdict = .ok () ∧
      q.runWithin 1 .unbounded = some ⟨.error (.indexOutOfBounds "2" 2 .nowhere), []⟩ ∧
      (∀ m, q.Reaches .unbounded m → ∀ items, m.Occurs q .unbounded (.list items) → items ≠ []) ∧
      ∃ m items i, q.Reaches .unbounded m ∧
        q.Accesses .unbounded m.task m.state items i .nowhere ∧
        items.length = 2 ∧ Integer.text i = "2" ∧ (i < 0 ∨ (items.length : Int) ≤ i) ∧
        (Report.ofError (.indexOutOfBounds "2" 2 .nowhere) "rows").suggestions.map
          Suggestion.message = ["Valid indices for this list are 0 to 1"] := by
  intro q
  have hfresh : overreaching.IsFresh := rfl
  have haccepted : (overreaching.analyze .builtin).verdict = .ok () := by cbv
  have hrun : (overreaching.analyze .builtin).node.runWithin 1 .unbounded =
      some ⟨.error (.indexOutOfBounds "2" 2 .nowhere), []⟩ := by cbv
  obtain ⟨hlists, herror⟩ := lists_nonempty hfresh haccepted .unbounded
  obtain ⟨m, items, i, hm, haccess, -, -, hlength, hindex, houtside, hreport, -⟩ :=
    herror 1 [] "2" 2 .nowhere hrun
  exact ⟨hfresh, haccepted, hrun, hlists, m, items, i, hm, haccess, hlength.symm, hindex.symm,
    houtside, hreport "rows"⟩

/-- A program that reads an empty list. -/
def readingNothing : Program :=
  ⟨[], [Build.function "main" [] none
    [Build.declaration "xs" none (some (Build.list [])),
      Build.ret (Build.element "xs" (Build.literal (.integer 0)))]]⟩

/-- Unless the checker has accepted a program, the range may offer what is no position: here it is
"0 to 0", while 0 is the very index that is out of bounds. -/
example :
    (readingNothing.analyze .builtin).verdict ≠ .ok () ∧
      readingNothing.runWithin 1 .unbounded =
        some ⟨.error (.indexOutOfBounds "0" 0 .nowhere), []⟩ ∧
      (Report.ofError (.indexOutOfBounds "0" 0 .nowhere) "xs").suggestions.map
        Suggestion.message = ["Valid indices for this list are 0 to 0"] := by
  refine ⟨?_, by cbv, Report.messages_indexOutOfBounds "0" 0 .nowhere "xs"⟩
  cbv
  nofun

end Program

end ImpTree
