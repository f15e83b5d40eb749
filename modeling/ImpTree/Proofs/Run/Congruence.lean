import ImpTree.Proofs.Run.Paired
import ImpTree.Proofs.Tree.Parts

/-!
# Relations that respect how computations are put together

Many facts about a run compare it with another run of the same program: to another sink, or within
other rounds.  What such a comparison needs is collected here: a relation between computations with
a clause for every way of putting computations together.  If it relates the calls and the loops of
two hosts, it relates whole statements.

A property of single computations is a relation that looks at one side only.  A relation need not
go through every look-up: it says for which names it does.

* `Eval.Congruence` — the clauses.
* `Host.Related`, `Host.Related.of_calls` — hosts whose calls and loops are related.
* `Expr.evaluate_related`, `Stmt.execute_related` — **expressions and statements are related under
  such hosts.**
-/

namespace ImpTree

/-- A relation between computations that holds of the steps of a run, as far as they look up the
given names, and is kept when computations are put together. -/
structure Eval.Congruence (names : String → Prop) (R : ∀ {α : Type}, Eval α → Eval α → Prop) :
    Prop where
  /-- A result. -/
  pure {α : Type} (a : α) : R (Pure.pure a) (Pure.pure a)
  /-- An error. -/
  fail {α : Type} (e : Error) : R (Eval.fail e : Eval α) (Eval.fail e)
  /-- A name that is looked up. -/
  lookup (name : String) (hname : names name) (span : Span) :
    R (Eval.lookup name span) (Eval.lookup name span)
  /-- A variable that is declared. -/
  declare (binding : VariableBinding) (value : Value) (span : Span) :
    R (Eval.declare binding value span) (Eval.declare binding value span)
  /-- A variable that gets a new value. -/
  assign (name : String) (hname : names name) (value : Value) :
    R (Eval.scope >>= fun scope => Eval.setScope (scope.assign name value))
      (Eval.scope >>= fun scope => Eval.setScope (scope.assign name value))
  /-- One computation after the other; the second one for the results of the first one only. -/
  bind {α β : Type} {m m' : Eval α} {f f' : α → Eval β} (hm : R m m')
    (hf : ∀ a, (∃ s t, m s = .done a t) → R (f a) (f' a)) : R (m >>= f) (m' >>= f')
  /-- A computation in a frame of its own. -/
  inChild {α : Type} {m m' : Eval α} (h : R m m') : R (Eval.inChild m) (Eval.inChild m')
  /-- A computation in a frame directly inside the root. -/
  inCall {α : Type} {m m' : Eval α} (h : R m m') : R (Eval.inCall m) (Eval.inCall m')

namespace Eval.Congruence

variable {names : String → Prop} {R : ∀ {α : Type}, Eval α → Eval α → Prop}
  (hR : Congruence names R)

include hR

/-- A result or an error without further computation. -/
theorem lift {α : Type} (x : Except Error α) : R (Eval.lift x) (Eval.lift x) := by
  cases x with
  | ok a => exact hR.pure a
  | error e => exact hR.fail e

/-- A loop, by induction on its rounds: each of them is the condition, the body and the rest. -/
theorem loop {α : Type} (hunfinished : R (Eval.unfinished : Eval (Option α)) Eval.unfinished)
    {condition condition' : Eval Bool} {body body' : Eval (Option α)}
    (hcondition : R condition condition') (hbody : R body body') : ∀ rounds : Nat,
      R (Eval.loop condition body rounds) (Eval.loop condition' body' rounds) := by
  intro rounds
  induction rounds with
  | zero => exact hunfinished
  | succ rounds ih =>
    rw [loop_succ, loop_succ]
    refine hR.bind hcondition fun holds _ => ?_
    cases holds with
    | false => exact hR.pure none
    | true =>
      refine hR.bind hbody fun flow _ => ?_
      cases flow with
      | none => exact ih
      | some a => exact hR.pure (some a)

/-- An assignment: the lookup, the new value, and the scope that holds it. -/
theorem assignTo (name : String) (hname : names name) (index : Option Value) (value : Value)
    (placeSpan span : Span) :
    R (ImpTree.assignTo name index value placeSpan span)
      (ImpTree.assignTo name index value placeSpan span) := by
  rw [ImpTree.assignTo]
  refine hR.bind (hR.lookup name hname placeSpan) fun found _ => ?_
  by_cases hmutable : found.binding.isMutable = true
  · rw [if_pos hmutable]
    cases index with
    | none => exact hR.assign name hname value
    | some index => exact hR.bind (hR.lift _) fun new _ => hR.assign name hname new
  · rw [if_neg hmutable]
    exact hR.fail _

/-- The arguments of a call, one after the other. -/
theorem declareArguments (span : Span) : ∀ (names : List String) (values : List Value),
    R (ImpTree.declareArguments span names values)
      (ImpTree.declareArguments span names values) := by
  intro names
  induction names with
  | nil =>
    intro values
    exact hR.pure ()
  | cons name names ih =>
    intro values
    cases values with
    | nil => exact hR.pure ()
    | cons value values =>
      exact hR.bind (hR.declare (runVariable name) value span) fun _ _ => ih values

/-- Writes, one after the other. -/
theorem writeAll {sink sink' : Sink} : ∀ {texts : List String},
    (∀ text ∈ texts, R (Eval.write sink text) (Eval.write sink' text)) →
      R (Eval.writeAll sink texts) (Eval.writeAll sink' texts) := by
  intro texts
  induction texts with
  | nil =>
    intro _
    exact hR.pure ()
  | cons text rest ih =>
    intro hwrite
    rw [List.forall_mem_cons] at hwrite
    exact hR.bind hwrite.1 fun _ _ => ih hwrite.2

end Eval.Congruence

/-! ## Built-in functions -/

/-- No piece of a value that is written is empty. -/
theorem Value.ne_empty_of_mem_writes {v : Value} {text : String} (h : text ∈ v.writes) :
    text ≠ "" := by
  rw [writes, List.mem_filter] at h
  rintro rfl
  exact absurd h.2 (by decide)

/-- A built-in function is related to itself under sinks that relate the writes that are not
empty. -/
theorem Builtin.invoke_related {names : String → Prop} {R : ∀ {α : Type}, Eval α → Eval α → Prop}
    (hR : Eval.Congruence names R) (sink sink' : Sink)
    (hwrite : ∀ text, text ≠ "" → R (Eval.write sink text) (Eval.write sink' text))
    (arguments : List Value) (function : Builtin) :
    R (function.invoke sink arguments) (function.invoke sink' arguments) := by
  have hlines : ∀ values : List Value, R (printLines sink values) (printLines sink' values) := by
    intro values
    induction values with
    | nil => exact hR.pure ()
    | cons v rest ih =>
      refine hR.bind (hR.writeAll fun text htext => hwrite text ?_) fun _ _ => ih
      rcases List.mem_append.1 htext with hmem | hmem
      · exact Value.ne_empty_of_mem_writes hmem
      · rw [List.mem_singleton.1 hmem]
        decide
  cases function with
  | print => exact hR.bind (hlines arguments) fun _ _ => hR.pure _

/-! ## Hosts -/

/-- Does the statement repeat its parts? -/
def Stmt.isLoop : Stmt → Bool
  | .whileLoop _ _ _ => true
  | _ => false

/-- Calls of the given keys are related under both hosts, and so are loops, if there may be any. -/
structure Host.Related (R : ∀ {α : Type}, Eval α → Eval α → Prop) (calls : String × Nat → Prop)
    (loops : Prop) (host host' : Host) : Prop where
  /-- A call that may happen. -/
  call : ∀ key, calls key → ∀ (span : Span) (values : List Value), values.length = key.2 →
    R (host.callNamed key.1 span values) (host'.callNamed key.1 span values)
  /-- A loop over parts that are related. -/
  loop : loops → ∀ {condition condition' : Eval Bool} {body body' : Eval Flow},
    R condition condition' → R body body' →
      R (Eval.loop condition body host.rounds) (Eval.loop condition' body' host'.rounds)

section Hosts

variable {names : String → Prop} {R : ∀ {α : Type}, Eval α → Eval α → Prop}
  {calls : String × Nat → Prop} {loops : Prop} {host host' : Host}

/-- Hosts relate all calls if the calls of declared functions are related, whichever function a name
stands for. -/
theorem Host.Related.of_calls (hR : Eval.Congruence names R) (hscope : R Eval.scope Eval.scope)
    (hwrite : ∀ text, text ≠ "" → R (Eval.write host.sink text) (Eval.write host'.sink text))
    (hcall : ∀ index arguments, R (host.call index arguments) (host'.call index arguments))
    (hloop : ∀ {condition condition' : Eval Bool} {body body' : Eval Flow},
      R condition condition' → R body body' →
        R (Eval.loop condition body host.rounds) (Eval.loop condition' body' host'.rounds)) :
    host.Related R (fun _ => True) True host' where
  call := by
    intro key _ span values _
    refine hR.bind hscope fun scope _ => hR.bind (hR.lift _) fun callee _ => ?_
    cases callee.target with
    | builtin function => exact function.invoke_related hR host.sink host'.sink hwrite values
    | declared index => exact hcall index values
  loop := by
    intro _ condition condition' body body' hcondition hbody
    exact hloop hcondition hbody

/-! ## Expressions -/

mutual

/-- **An expression is related to itself** under hosts that relate its calls. -/
theorem Expr.evaluate_related (hR : Eval.Congruence names R)
    (h : host.Related R calls loops host') :
    ∀ e : Expr, (∀ name ∈ e.reads, names name) → (∀ key ∈ e.calls, calls key) →
      R (e.evaluate host) (e.evaluate host')
  | .literal value span ty, _, _ => hR.pure _
  | .group inner span ty, hreads, hcalls => Expr.evaluate_related hR h inner hreads hcalls
  | .binary op left right span ty, hreads, hcalls => by
    rw [Expr.reads, List.forall_mem_append] at hreads
    rw [Expr.calls, List.forall_mem_append] at hcalls
    rw [Expr.evaluate, Expr.evaluate]
    refine hR.bind (Expr.evaluate_related hR h left hreads.1 hcalls.1) fun a _ => ?_
    have hright := Expr.evaluate_related hR h right hreads.2 hcalls.2
    by_cases hop : op = .and ∨ op = .or
    · rw [if_pos hop, if_pos hop]
      refine hR.bind (hR.lift _) fun decided _ => ?_
      by_cases hdecided : decided = (op == .or)
      · rw [if_pos hdecided, if_pos hdecided]
        exact hR.pure _
      · rw [if_neg hdecided, if_neg hdecided]
        exact hR.bind hright fun b _ => hR.bind (hR.lift _) fun _ _ => hR.pure _
    · rw [if_neg hop, if_neg hop]
      exact hR.bind hright fun b _ => hR.lift _
  | .var name binding span ty, hreads, _ => by
    rw [Expr.evaluate, Expr.evaluate]
    have hname := hreads name (List.mem_singleton_self _)
    exact hR.bind (hR.lookup name hname span) fun _ _ => hR.pure _
  | .element name offset binding span ty, hreads, hcalls => by
    rw [Expr.reads, List.forall_mem_cons] at hreads
    rw [Expr.evaluate, Expr.evaluate]
    refine hR.bind (Expr.evaluate_related hR h offset hreads.2 hcalls) fun index _ => ?_
    exact hR.bind (hR.lookup name hreads.1 span) fun _ _ => hR.lift _
  | .call name arguments binding span ty, hreads, hcalls => by
    rw [Expr.calls, List.forall_mem_cons] at hcalls
    rw [Expr.evaluate_call, Expr.evaluate_call]
    have harguments := Expr.evaluateAll_related hR h arguments hreads hcalls.2
    refine hR.bind harguments fun values ⟨s, t, hvalues⟩ => ?_
    exact h.call _ hcalls.1 span values (Expr.length_evaluateAll hvalues)
  | .list elements span ty, hreads, hcalls => by
    rw [Expr.evaluate, Expr.evaluate]
    exact hR.bind (Expr.evaluateAll_related hR h elements hreads hcalls) fun _ _ => hR.pure _

/-- So are expressions, one after the other. -/
theorem Expr.evaluateAll_related (hR : Eval.Congruence names R)
    (h : host.Related R calls loops host') :
    ∀ es : List Expr, (∀ name ∈ Expr.allReads es, names name) →
      (∀ key ∈ Expr.allCalls es, calls key) →
        R (Expr.evaluateAll host es) (Expr.evaluateAll host' es)
  | [], _, _ => hR.pure _
  | e :: rest, hreads, hcalls => by
    rw [Expr.allReads, List.forall_mem_append] at hreads
    rw [Expr.allCalls, List.forall_mem_append] at hcalls
    rw [Expr.evaluateAll, Expr.evaluateAll]
    refine hR.bind (Expr.evaluate_related hR h e hreads.1 hcalls.1) fun _ _ => ?_
    exact hR.bind (Expr.evaluateAll_related hR h rest hreads.2 hcalls.2) fun _ _ => hR.pure _

end

/-- So is a condition. -/
theorem Expr.evaluateCondition_related (hR : Eval.Congruence names R)
    (h : host.Related R calls loops host') (condition : Expr)
    (hreads : ∀ name ∈ condition.reads, names name)
    (hcalls : ∀ key ∈ condition.calls, calls key) :
    R (condition.evaluateCondition host) (condition.evaluateCondition host') :=
  hR.bind (Expr.evaluate_related hR h condition hreads hcalls) fun _ _ => hR.lift _

/-- So is an initial value. -/
theorem Expr.evaluateOption_related (hR : Eval.Congruence names R)
    (h : host.Related R calls loops host') (value : Option Expr)
    (hreads : ∀ name ∈ Expr.optionReads value, names name)
    (hcalls : ∀ key ∈ Expr.optionCalls value, calls key) :
    R (Expr.evaluateOption host value) (Expr.evaluateOption host' value) := by
  cases value with
  | none => exact hR.pure _
  | some e => exact Expr.evaluate_related hR h e hreads hcalls

/-! ## Statements -/

mutual

/-- **A statement is related to itself** under hosts that relate its calls and its loops. -/
theorem Stmt.execute_related (hR : Eval.Congruence names R) (h : host.Related R calls loops host') :
    ∀ stmt : Stmt, (∀ name ∈ stmt.uses, names name) → (∀ key ∈ stmt.calls, calls key) →
    (∀ part ∈ stmt.parts, part.isLoop = true → loops) →
      R (stmt.execute host) (stmt.execute host')
  | .expression expr span, huses, hcalls, _ => by
    rw [Stmt.execute, Stmt.execute]
    exact hR.bind (Expr.evaluate_related hR h expr huses hcalls) fun _ _ => hR.pure _
  | .declaration name typeName value binding span, huses, hcalls, _ => by
    rw [Stmt.execute, Stmt.execute]
    refine hR.bind (Expr.evaluateOption_related hR h value huses hcalls) fun v _ => ?_
    exact hR.bind (hR.declare (runVariable name) v span) fun _ _ => hR.pure _
  | .assignment receiver value span, huses, hcalls, _ => by
    rw [Stmt.uses, List.forall_mem_append] at huses
    rw [Stmt.calls, List.forall_mem_append] at hcalls
    have hvalue := Expr.evaluate_related hR h value huses.2 hcalls.2
    cases receiver with
    | var name binding place ty =>
      have hname := huses.1 name (List.mem_singleton_self _)
      rw [Stmt.execute, Stmt.execute]
      refine hR.bind hvalue fun v _ => ?_
      exact hR.bind (hR.assignTo name hname none v place span) fun _ _ => hR.pure _
    | element name offset binding place ty =>
      have hreads := List.forall_mem_cons.1 huses.1
      rw [Stmt.execute, Stmt.execute]
      refine hR.bind (Expr.evaluate_related hR h offset hreads.2 hcalls.1) fun index _ => ?_
      refine hR.bind hvalue fun v _ => ?_
      exact hR.bind (hR.assignTo name hreads.1 (some index) v place span) fun _ _ => hR.pure _
    | _ => exact hR.fail _
  | .ifElse condition thenBody elseBody span, huses, hcalls, hloops => by
    rw [Stmt.uses, List.forall_mem_append, List.forall_mem_append] at huses
    rw [Stmt.calls, List.forall_mem_append, List.forall_mem_append] at hcalls
    rw [Stmt.parts, List.forall_mem_cons, List.forall_mem_append] at hloops
    rw [Stmt.execute, Stmt.execute]
    refine hR.bind (Expr.evaluateCondition_related hR h condition huses.1 hcalls.1)
      fun holds _ => ?_
    cases holds with
    | true =>
      exact hR.inChild (Stmt.executeBlock_related hR h thenBody huses.2.1 hcalls.2.1 hloops.2.1)
    | false =>
      exact hR.inChild (Stmt.executeBlock_related hR h elseBody huses.2.2 hcalls.2.2 hloops.2.2)
  | .switch condition cases span, huses, hcalls, hloops => by
    rw [Stmt.uses, List.forall_mem_append] at huses
    rw [Stmt.calls, List.forall_mem_append] at hcalls
    rw [Stmt.parts, List.forall_mem_cons] at hloops
    rw [Stmt.execute, Stmt.execute]
    refine hR.bind (Expr.evaluate_related hR h condition huses.1 hcalls.1) fun v _ => ?_
    exact Stmt.executeCases_related hR h v cases huses.2 hcalls.2 hloops.2
  | .whileLoop condition body span, huses, hcalls, hloops => by
    rw [Stmt.uses, List.forall_mem_append] at huses
    rw [Stmt.calls, List.forall_mem_append] at hcalls
    rw [Stmt.parts, List.forall_mem_cons] at hloops
    rw [Stmt.execute, Stmt.execute]
    exact h.loop (hloops.1 rfl) (Expr.evaluateCondition_related hR h condition huses.1 hcalls.1)
      (hR.inChild (Stmt.executeBlock_related hR h body huses.2 hcalls.2 hloops.2))
  | .ret value span, huses, hcalls, _ => by
    rw [Stmt.execute, Stmt.execute]
    exact hR.bind (Expr.evaluate_related hR h value huses hcalls) fun _ _ => hR.pure _

/-- So are statements, one after the other. -/
theorem Stmt.executeBlock_related (hR : Eval.Congruence names R)
    (h : host.Related R calls loops host') :
    ∀ block : List Stmt, (∀ name ∈ Stmt.blockUses block, names name) →
      (∀ key ∈ Stmt.blockCalls block, calls key) →
      (∀ part ∈ Stmt.blockParts block, part.isLoop = true → loops) →
        R (Stmt.executeBlock host block) (Stmt.executeBlock host' block)
  | [], _, _, _ => hR.pure _
  | stmt :: rest, huses, hcalls, hloops => by
    rw [Stmt.blockUses, List.forall_mem_append] at huses
    rw [Stmt.blockCalls, List.forall_mem_append] at hcalls
    rw [Stmt.blockParts, List.forall_mem_append] at hloops
    rw [Stmt.executeBlock, Stmt.executeBlock]
    refine hR.bind (Stmt.execute_related hR h stmt huses.1 hcalls.1 hloops.1) fun flow _ => ?_
    cases flow with
    | none => exact Stmt.executeBlock_related hR h rest huses.2 hcalls.2 hloops.2
    | some v => exact hR.pure _

/-- So are the arms of a switch. -/
theorem Stmt.executeCases_related (hR : Eval.Congruence names R)
    (h : host.Related R calls loops host') (v : Value) :
    ∀ arms : List Case, (∀ name ∈ Stmt.casesUses arms, names name) →
      (∀ key ∈ Stmt.casesCalls arms, calls key) →
      (∀ part ∈ Stmt.casesParts arms, part.isLoop = true → loops) →
        R (Stmt.executeCases host v arms) (Stmt.executeCases host' v arms)
  | [], _, _, _ => hR.pure _
  | .mk none body span :: rest, huses, hcalls, hloops => by
    rw [Stmt.casesUses, List.forall_mem_append, List.forall_mem_append] at huses
    rw [Stmt.casesCalls, List.forall_mem_append, List.forall_mem_append] at hcalls
    rw [Stmt.casesParts, List.forall_mem_append] at hloops
    rw [Stmt.executeCases_default, Stmt.executeCases_default]
    exact hR.inChild (Stmt.executeBlock_related hR h body huses.2.1 hcalls.2.1 hloops.1)
  | .mk (some e) body span :: rest, huses, hcalls, hloops => by
    rw [Stmt.casesUses, List.forall_mem_append, List.forall_mem_append] at huses
    rw [Stmt.casesCalls, List.forall_mem_append, List.forall_mem_append] at hcalls
    rw [Stmt.casesParts, List.forall_mem_append] at hloops
    rw [Stmt.executeCases_value, Stmt.executeCases_value]
    refine hR.bind (Expr.evaluate_related hR h e huses.1 hcalls.1) fun x _ => ?_
    by_cases hsame : x.same v = true
    · rw [if_pos hsame, if_pos hsame]
      exact hR.inChild (Stmt.executeBlock_related hR h body huses.2.1 hcalls.2.1 hloops.1)
    · rw [if_neg hsame, if_neg hsame]
      exact Stmt.executeCases_related hR h v rest huses.2.2 hcalls.2.2 hloops.2

end

/-! ## Functions and globals -/

/-- So are calls of a function with such a body. -/
theorem FunctionDef.apply_related (hR : Eval.Congruence names R)
    (h : host.Related R calls loops host') (f : FunctionDef) (arguments : List Value)
    (huses : ∀ name ∈ Stmt.blockUses f.body, names name)
    (hcalls : ∀ key ∈ Stmt.blockCalls f.body, calls key)
    (hloops : ∀ part ∈ Stmt.blockParts f.body, part.isLoop = true → loops) :
    R (f.apply host arguments) (f.apply host' arguments) := by
  refine hR.inCall (hR.bind (hR.declareArguments _ _ _) fun _ _ => ?_)
  exact hR.bind (Stmt.executeBlock_related hR h f.body huses hcalls hloops) fun _ _ => hR.pure _

/-- So are the declarations of globals. -/
theorem declareGlobals_related (hR : Eval.Congruence names R)
    (h : host.Related R calls loops host') : ∀ globals : List Global,
    (∀ g ∈ globals, ∀ name ∈ Expr.optionReads g.value, names name) →
    (∀ g ∈ globals, ∀ key ∈ Expr.optionCalls g.value, calls key) →
      R (declareGlobals host globals) (declareGlobals host' globals) := by
  intro globals
  induction globals with
  | nil =>
    intro _ _
    exact hR.pure ()
  | cons g rest ih =>
    intro hreads hcalls
    rw [List.forall_mem_cons] at hreads hcalls
    rw [declareGlobals, declareGlobals]
    refine hR.bind (Expr.evaluateOption_related hR h g.value hreads.1 hcalls.1) fun v _ => ?_
    exact hR.bind (hR.declare _ v g.span) fun _ _ => ih hreads.2 hcalls.2

end Hosts

end ImpTree
