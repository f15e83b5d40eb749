import ImpTree.Proofs.Lists.Values
import ImpTree.Proofs.Run.Steps
import ImpTree.Proofs.Scope.Contents
import ImpTree.Proofs.Tree.Parts

/-!
# Runs without empty lists

Where no list expression is empty, no computation brings an empty list into the scope or has one as
its result.

* `Scope.EmptyFree` — no variable holds an empty list.
* `Eval.Keeps` — a computation keeps the scope so.
* `Expr.evaluate_keeps`, `Stmt.execute_keeps` — **expressions and statements**, if calls do.
* `Program.host_keeps` — **calls**, however deep they nest.
-/

namespace ImpTree

/-! ## Scopes -/

/-- No variable of the scope holds an empty list, or a value with an empty list inside. -/
def Scope.EmptyFree (s : Scope) : Prop := ∀ v ∈ s.values, v.EmptyFree

namespace Scope

variable {s t : Scope}

theorem EmptyFree.initial : initial.EmptyFree := by
  rw [EmptyFree, values_initial]
  exact List.forall_mem_nil _

theorem EmptyFree.child (h : s.EmptyFree) : s.child.EmptyFree := by
  rwa [EmptyFree, values_child]

theorem EmptyFree.leave (h : s.EmptyFree) : s.leave.EmptyFree := fun v hv => h v (s.values_leave hv)

theorem EmptyFree.enterCall (h : s.EmptyFree) : s.global.child.EmptyFree :=
  fun v hv => h v (s.values_global hv)

theorem EmptyFree.restore (h : s.EmptyFree) (ht : t.EmptyFree) :
    (Scope.mk s.inner t.root).EmptyFree :=
  fun v hv => (List.mem_append.1 (s.values_restore t hv)).elim (h v) (ht v)

theorem EmptyFree.withVariable {x : Variable} (h : s.EmptyFree) (hx : x.value.EmptyFree) :
    (s.withVariable x).EmptyFree := by
  rw [EmptyFree, values_withVariable]
  exact List.forall_mem_cons.2 ⟨hx, h⟩

theorem EmptyFree.withCallee (h : s.EmptyFree) (c : Callee) : (s.withCallee c).EmptyFree := by
  rw [EmptyFree, values_withCallee]
  exact h

theorem EmptyFree.assign {new : Value} (h : s.EmptyFree) (name : String) (hnew : new.EmptyFree) :
    (s.assign name new).EmptyFree :=
  fun v hv => List.forall_mem_cons.2 ⟨hnew, h⟩ v (s.values_assign name new hv)

end Scope

/-- The result of a function, if it is known, is without empty lists. -/
def Flow.EmptyFree (flow : Flow) : Prop := ∀ v, flow = some v → v.EmptyFree

/-! ## Computations -/

section Computations

variable {α β : Type} {m : Eval α} {mid post : α → Prop}

/-- From a scope without empty lists, the computation comes to a result as required and again to
such a scope, if it does not fail. -/
def Eval.Keeps (post : α → Prop) (m : Eval α) : Prop :=
  ∀ s : State, s.scope.EmptyFree →
    (m s).Meets (fun a t => post a ∧ t.scope.EmptyFree) fun _ => True

namespace Eval.Keeps

theorem pure {a : α} (h : post a) : Keeps post (Pure.pure a) := fun _ hs => ⟨h, hs⟩

theorem fail (e : Error) : Keeps post (Eval.fail e) := fun _ _ => trivial

theorem lift {x : Except Error α} (h : ∀ a, x = .ok a → post a) : Keeps post (Eval.lift x) := by
  cases x with
  | ok a => exact pure (h a rfl)
  | error e => exact fail e

theorem bind {f : α → Eval β} {last : β → Prop} (hm : m.Keeps mid)
    (hf : ∀ a, mid a → (f a).Keeps last) : (m >>= f).Keeps last :=
  fun s hs => (hm s hs).bind fun a t _ ⟨ha, ht⟩ => hf a ha t ht

theorem scope : Keeps Scope.EmptyFree Eval.scope := fun _ hs => ⟨hs, hs⟩

theorem setScope {scope : Scope} (h : scope.EmptyFree) :
    Keeps (fun _ => True) (Eval.setScope scope) :=
  fun _ _ => ⟨trivial, h⟩

/-! ### Names -/

theorem lookup (name : String) (span : Span) :
    Keeps (fun v => v.value.EmptyFree) (Eval.lookup name span) :=
  scope.bind fun _ hs => lift fun _ hfound =>
    hs _ (Scope.value_mem_values (Scope.findVariable_eq_ok.1 hfound))

theorem declare {value : Value} (binding : VariableBinding) (h : value.EmptyFree) (span : Span) :
    Keeps (fun _ => True) (Eval.declare binding value span) := by
  refine scope.bind fun s hs => (lift fun t hadd => ?_).bind fun _ => setScope
  obtain ⟨-, rfl⟩ := Scope.addVariable_eq_ok.1 hadd
  exact hs.withVariable h

theorem assignTo {value : Value} (name : String) (index : Option Value) (h : value.EmptyFree)
    (placeSpan span : Span) :
    Keeps (fun _ => True) (ImpTree.assignTo name index value placeSpan span) := by
  refine (lookup name placeSpan).bind fun found hfound => ?_
  split
  · have hnew : ∀ new : Value, new.EmptyFree → Keeps (fun _ => True)
        (Eval.scope >>= fun s => Eval.setScope (s.assign name new)) :=
      fun new hnew => scope.bind fun s hs => setScope (hs.assign name hnew)
    cases index with
    | none => exact hnew value h
    | some i => exact (lift fun _ => Value.withElementAt_emptyFree hfound h).bind hnew
  · exact fail _

theorem declareArguments (span : Span) : ∀ (names : List String) {values : List Value},
    (∀ v ∈ values, v.EmptyFree) →
      Keeps (fun _ => True) (ImpTree.declareArguments span names values) := by
  intro names
  induction names with
  | nil =>
    intro values _
    exact pure trivial
  | cons name names ih =>
    intro values hvalues
    cases values with
    | nil => exact pure trivial
    | cons value values =>
      rw [List.forall_mem_cons] at hvalues
      exact (declare _ hvalues.1 span).bind fun _ _ => ih hvalues.2

/-! ### Frames and loops -/

theorem inChild (h : m.Keeps post) : (Eval.inChild m).Keeps post :=
  fun s hs => .inChild ((h { s with scope := s.scope.child } hs.child).mono
    (fun _ _ _ ⟨ha, ht⟩ => ⟨ha, ht.leave⟩) fun _ he => he)

theorem inCall (h : m.Keeps post) : (Eval.inCall m).Keeps post :=
  fun s hs => .inCall ((h { s with scope := s.scope.global.child } hs.enterCall).mono
    (fun _ _ _ ⟨ha, ht⟩ => ⟨ha, hs.restore ht⟩) fun _ he => he)

/-- A loop, by induction on its rounds: the scope is without empty lists before each of them. -/
theorem loop {condition : Eval Bool} {body : Eval Flow} (hcondition : condition.Keeps fun _ => True)
    (hbody : body.Keeps Flow.EmptyFree) (rounds : Nat) :
    Keeps Flow.EmptyFree (Eval.loop condition body rounds) := by
  induction rounds with
  | zero => exact fun _ _ => trivial
  | succ rounds ih =>
    rw [Eval.loop_succ]
    refine hcondition.bind fun holds _ => ?_
    cases holds with
    | false => exact pure nofun
    | true =>
      refine hbody.bind fun flow hflow => ?_
      cases flow with
      | none => exact ih
      | some v => exact pure hflow

/-! ### Output -/

theorem writeAll (sink : Sink) (texts : List String) :
    Keeps (fun _ => True) (Eval.writeAll sink texts) := by
  induction texts with
  | nil => exact pure trivial
  | cons text rest ih =>
    have hwrite : Keeps (fun _ => True) (Eval.write sink text) := by
      intro s hs
      rw [Eval.write]
      cases sink.refusal? s.writes with
      | none => exact ⟨trivial, hs⟩
      | some reason => trivial
    exact hwrite.bind fun _ _ => ih

theorem flush (sink : Sink) : Keeps (fun _ => True) (Eval.flush sink) := by
  rw [Eval.flush]
  cases sink.flushRefusal? with
  | none => exact pure trivial
  | some reason => exact fail _

end Eval.Keeps

/-- A built-in function has no list as its result. -/
theorem Builtin.invoke_keeps (sink : Sink) (arguments : List Value) (function : Builtin) :
    (function.invoke sink arguments).Keeps Value.EmptyFree := by
  have hlines : ∀ values : List Value, (printLines sink values).Keeps fun _ => True := by
    intro values
    induction values with
    | nil => exact .pure trivial
    | cons v rest ih => exact (Eval.Keeps.writeAll sink _).bind fun _ _ => ih
  cases function with
  | print => exact (hlines arguments).bind fun _ _ => .pure Value.emptyFree_nil

end Computations

/-! ## Expressions -/

/-- A list expression has elements. -/
def Expr.HasElements : Expr → Prop
  | .list elements _ _ => elements ≠ []
  | _ => True

/-- Calls with arguments without empty lists have such results. -/
def Host.Keeps (host : Host) : Prop :=
  ∀ index arguments, (∀ v ∈ arguments, v.EmptyFree) →
    (host.call index arguments).Keeps Value.EmptyFree

section Hosts

variable {host : Host}

namespace Expr

mutual

/-- **The value of an expression is without empty lists**, if its list expressions have elements. -/
theorem evaluate_keeps (h : host.Keeps) : ∀ e : Expr, (∀ x ∈ e.parts, x.HasElements) →
    (e.evaluate host).Keeps Value.EmptyFree
  | .literal value span ty, _ => .pure value.emptyFree_value
  | .group inner span ty, hparts => by
    rw [parts, List.forall_mem_cons] at hparts
    exact evaluate_keeps h inner hparts.2
  | .binary op left right span ty, hparts => by
    rw [parts, List.forall_mem_cons, List.forall_mem_append] at hparts
    obtain ⟨-, hleft, hright⟩ := hparts
    rw [evaluate]
    refine (evaluate_keeps h left hleft).bind fun a _ => ?_
    split
    · refine (Eval.Keeps.lift fun _ _ => trivial).bind fun decided _ => ?_
      split
      · exact .pure (Value.emptyFree_boolean _)
      · exact (evaluate_keeps h right hright).bind fun b _ =>
          (Eval.Keeps.lift fun _ _ => trivial).bind fun _ _ => .pure (Value.emptyFree_boolean _)
    · exact (evaluate_keeps h right hright).bind fun b _ =>
        .lift fun _ => (op.apply_emptyFree a b span).of_ok
  | .var name binding span ty, _ => by
    rw [evaluate]
    exact (Eval.Keeps.lookup name span).bind fun _ hfound => .pure hfound
  | .element name offset binding span ty, hparts => by
    rw [parts, List.forall_mem_cons] at hparts
    rw [evaluate]
    exact (evaluate_keeps h offset hparts.2).bind fun _ _ =>
      (Eval.Keeps.lookup name span).bind fun _ hfound =>
        .lift fun _ => Value.elementAt_emptyFree hfound
  | .call name arguments binding span ty, hparts => by
    rw [parts, List.forall_mem_cons] at hparts
    rw [evaluate]
    refine (evaluateAll_keeps h arguments hparts.2).bind fun values hvalues =>
      Eval.Keeps.scope.bind fun s _ => ?_
    refine (Eval.Keeps.lift fun _ _ => trivial).bind fun callee _ => ?_
    cases callee.target with
    | builtin function => exact Builtin.invoke_keeps host.sink values function
    | declared index => exact h index values hvalues.2
  | .list elements span ty, hparts => by
    rw [parts, List.forall_mem_cons] at hparts
    rw [evaluate]
    refine (evaluateAll_keeps h elements hparts.2).bind fun values ⟨hlength, hvalues⟩ =>
      .pure (Value.emptyFree_list.2 ⟨?_, hvalues⟩)
    -- there are as many values as elements
    have hne : elements ≠ [] := hparts.1
    rwa [← List.length_pos_iff, hlength, List.length_pos_iff]

/-- So are the values of expressions, of which there are as many. -/
theorem evaluateAll_keeps (h : host.Keeps) : ∀ es : List Expr,
    (∀ x ∈ allParts es, x.HasElements) →
      (evaluateAll host es).Keeps fun vs => vs.length = es.length ∧ ∀ v ∈ vs, v.EmptyFree
  | [], _ => .pure ⟨rfl, List.forall_mem_nil _⟩
  | e :: rest, hparts => by
    rw [allParts, List.forall_mem_append] at hparts
    rw [evaluateAll]
    exact (evaluate_keeps h e hparts.1).bind fun v hv =>
      (evaluateAll_keeps h rest hparts.2).bind fun vs ⟨hlength, hvs⟩ =>
        .pure ⟨congrArg Nat.succ hlength, List.forall_mem_cons.2 ⟨hv, hvs⟩⟩

end

theorem evaluateCondition_keeps (h : host.Keeps) (condition : Expr)
    (hparts : ∀ x ∈ condition.parts, x.HasElements) :
    (condition.evaluateCondition host).Keeps fun _ => True :=
  (evaluate_keeps h condition hparts).bind fun _ _ => .lift fun _ _ => trivial

theorem evaluateOption_keeps (h : host.Keeps) (value : Option Expr)
    (hparts : ∀ x ∈ optionParts value, x.HasElements) :
    (evaluateOption host value).Keeps Value.EmptyFree := by
  cases value with
  | none => exact .pure Value.emptyFree_nil
  | some e => exact evaluate_keeps h e hparts

end Expr

/-! ## Statements -/

mutual

/-- **A statement brings no empty list into the scope and returns none.** -/
theorem Stmt.execute_keeps (h : host.Keeps) : ∀ stmt : Stmt, (∀ x ∈ stmt.exprs, x.HasElements) →
    (stmt.execute host).Keeps Flow.EmptyFree
  | .expression expr span, hexprs => by
    rw [Stmt.execute]
    exact (expr.evaluate_keeps h hexprs).bind fun _ _ => .pure nofun
  | .declaration name typeName value binding span, hexprs => by
    rw [Stmt.execute]
    exact (Expr.evaluateOption_keeps h value hexprs).bind fun _ hv =>
      (Eval.Keeps.declare _ hv span).bind fun _ _ => .pure nofun
  | .assignment receiver value span, hexprs => by
    rw [Stmt.exprs, List.forall_mem_append] at hexprs
    obtain ⟨hreceiver, hvalue⟩ := hexprs
    cases receiver with
    | var name binding place ty =>
      rw [Stmt.execute]
      exact (value.evaluate_keeps h hvalue).bind fun _ hv =>
        (Eval.Keeps.assignTo name none hv place span).bind fun _ _ => .pure nofun
    | element name offset binding place ty =>
      rw [Expr.parts, List.forall_mem_cons] at hreceiver
      rw [Stmt.execute]
      exact (offset.evaluate_keeps h hreceiver.2).bind fun index _ =>
        (value.evaluate_keeps h hvalue).bind fun _ hv =>
          (Eval.Keeps.assignTo name (some index) hv place span).bind fun _ _ => .pure nofun
    | _ => exact .fail _
  | .ifElse condition thenBody elseBody span, hexprs => by
    rw [Stmt.exprs, List.forall_mem_append, List.forall_mem_append] at hexprs
    obtain ⟨hcondition, hthen, helse⟩ := hexprs
    rw [Stmt.execute]
    refine (condition.evaluateCondition_keeps h hcondition).bind fun holds _ => ?_
    split
    · exact (Stmt.executeBlock_keeps h thenBody hthen).inChild
    · exact (Stmt.executeBlock_keeps h elseBody helse).inChild
  | .switch condition cases span, hexprs => by
    rw [Stmt.exprs, List.forall_mem_append] at hexprs
    rw [Stmt.execute]
    exact (condition.evaluate_keeps h hexprs.1).bind fun v _ =>
      Stmt.executeCases_keeps h v cases hexprs.2
  | .whileLoop condition body span, hexprs => by
    rw [Stmt.exprs, List.forall_mem_append] at hexprs
    rw [Stmt.execute]
    exact .loop (condition.evaluateCondition_keeps h hexprs.1)
      (Stmt.executeBlock_keeps h body hexprs.2).inChild host.rounds
  | .ret value span, hexprs => by
    rw [Stmt.execute]
    refine (value.evaluate_keeps h hexprs).bind fun v hv => .pure ?_
    rintro _ ⟨⟩
    exact hv

/-- Nor do statements, one after the other. -/
theorem Stmt.executeBlock_keeps (h : host.Keeps) : ∀ block : List Stmt,
    (∀ x ∈ Stmt.blockExprs block, x.HasElements) →
      (Stmt.executeBlock host block).Keeps Flow.EmptyFree
  | [], _ => .pure nofun
  | stmt :: rest, hexprs => by
    rw [Stmt.blockExprs, List.forall_mem_append] at hexprs
    rw [Stmt.executeBlock]
    refine (Stmt.execute_keeps h stmt hexprs.1).bind fun flow hflow => ?_
    cases flow with
    | none => exact Stmt.executeBlock_keeps h rest hexprs.2
    | some v => exact .pure hflow

/-- Nor do the arms of a switch. -/
theorem Stmt.executeCases_keeps (h : host.Keeps) (v : Value) : ∀ arms : List Case,
    (∀ x ∈ Stmt.casesExprs arms, x.HasElements) →
      (Stmt.executeCases host v arms).Keeps Flow.EmptyFree
  | [], _ => .pure nofun
  | .mk none body span :: rest, hexprs => by
    rw [Stmt.casesExprs, List.forall_mem_append, List.forall_mem_append] at hexprs
    rw [Stmt.executeCases_default]
    exact (Stmt.executeBlock_keeps h body hexprs.2.1).inChild
  | .mk (some e) body span :: rest, hexprs => by
    rw [Stmt.casesExprs, List.forall_mem_append, List.forall_mem_append] at hexprs
    obtain ⟨he, hbody, hrest⟩ := hexprs
    rw [Stmt.executeCases_value]
    refine (e.evaluate_keeps h he).bind fun x _ => ?_
    split
    · exact (Stmt.executeBlock_keeps h body hbody).inChild
    · exact Stmt.executeCases_keeps h v rest hrest

end

/-! ## Programs -/

/-- The result of a call is without empty lists, the missing value of a function without a result
included. -/
theorem FunctionDef.apply_keeps (h : host.Keeps) (f : FunctionDef)
    (hbody : ∀ x ∈ Stmt.blockExprs f.body, x.HasElements) {arguments : List Value}
    (harguments : ∀ v ∈ arguments, v.EmptyFree) :
    (f.apply host arguments).Keeps Value.EmptyFree := by
  refine Eval.Keeps.inCall ((Eval.Keeps.declareArguments f.span f.parameters harguments).bind
    fun _ _ => ?_)
  refine (Stmt.executeBlock_keeps h f.body hbody).bind fun flow hflow => .pure ?_
  cases flow with
  | none => exact Value.emptyFree_nil
  | some v => exact hflow v rfl

theorem declareGlobals_keeps (h : host.Keeps) : ∀ {globals : List Global},
    (∀ x ∈ globals.flatMap fun g => Expr.optionParts g.value, x.HasElements) →
      (declareGlobals host globals).Keeps fun _ => True := by
  intro globals
  induction globals with
  | nil =>
    intro _
    exact .pure trivial
  | cons g rest ih =>
    intro hparts
    rw [List.flatMap_cons, List.forall_mem_append] at hparts
    exact (Expr.evaluateOption_keeps h g.value hparts.1).bind fun _ hv =>
      (Eval.Keeps.declare _ hv g.span).bind fun _ _ => ih hparts.2

end Hosts

theorem declareFunctions_keeps (fs : List FunctionDef) : ∀ index : Nat,
    (declareFunctions index fs).Keeps fun _ => True := by
  induction fs with
  | nil => exact fun _ => .pure trivial
  | cons f rest ih =>
    intro index
    refine Eval.Keeps.scope.bind fun s hs => (Eval.Keeps.lift fun t hadd => ?_).bind fun _ hnext =>
      (Eval.Keeps.setScope hnext).bind fun _ _ => ih (index + 1)
    obtain ⟨-, rfl⟩ := Scope.addFunction_eq_ok.1 hadd
    exact hs.withCallee _

namespace Program

variable {p : Program}

/-- **Calls keep the scope without empty lists**, by induction on how deep they nest. -/
theorem host_keeps (h : ∀ x ∈ p.exprs, x.HasElements) (sink : Sink) (rounds : Nat) :
    (p.host sink rounds).Keeps := by
  induction rounds with
  | zero => exact fun _ _ _ _ _ => trivial
  | succ depth ih =>
    intro index arguments harguments
    show (callWithin sink p.functions (depth + 1) index arguments).Keeps Value.EmptyFree
    rw [callWithin]
    cases hf : p.functions[index]? with
    | none => exact .fail _
    | some f =>
      have hbody : ∀ x ∈ Stmt.blockExprs f.body, x.HasElements := fun x hx =>
        h x (List.mem_append_right _ (List.mem_flatMap.2 ⟨f, List.mem_of_getElem? hf, hx⟩))
      exact f.apply_keeps ih hbody harguments

end Program

end ImpTree
