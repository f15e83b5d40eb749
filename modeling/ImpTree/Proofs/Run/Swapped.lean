import ImpTree.Proofs.Run.Paired
import ImpTree.Proofs.Scope.Offers

/-!
# Two runs with different functions

Two scopes may differ in their functions and still lead to the same run: if the functions that can
be called are found in both and mean the same.  Their positions in the two programs do not matter.

* `Host.Swaps` — two hosts under which the calls that may happen go together.
* `Stmt.execute_swaps` — under such hosts a statement goes together with the statement whose spans
  are replaced.
* `Target.Pairs` — what is found in both scopes: the same built-in function, or the same definition
  at two positions.
* `callWithin_swaps` — **calls go together to any depth** if what is found in both scopes does.
-/

namespace ImpTree

variable {α : Type} {σ : Span → Span} {cs cs' : List Callee} {calls : String × Nat → Prop}

/-! ## Steps -/

namespace Eval.Pairs

variable {m m' : Eval α}

/-- A computation in a frame of its own. -/
theorem inChild (hm : Pairs σ (Scope.Swaps cs cs') m m') :
    Pairs σ (Scope.Swaps cs cs') (Eval.inChild m) (Eval.inChild m') :=
  hm.inChild_of_related (fun _ _ h => h.child) fun _ _ h => h.leave

/-- A computation in a frame directly inside the root. -/
theorem inCall (hm : Pairs σ (Scope.Swaps cs cs') m m') :
    Pairs σ (Scope.Swaps cs cs') (Eval.inCall m) (Eval.inCall m') :=
  hm.inCall_of_related (fun _ _ h => h.global.child) fun _ _ _ _ h ht => h.restore ht

/-- A declaration. -/
theorem declare (binding : VariableBinding) (value : Value) (span : Span) :
    Pairs σ (Scope.Swaps cs cs') (Eval.declare binding value span)
      (Eval.declare binding value (σ span)) := by
  intro s s' h writes
  rw [Eval.declare, Eval.declare, bind_of_done scope_apply, bind_of_done scope_apply, h.eq,
    Scope.addVariable_withCallees, Scope.addVariable_mapSpan]
  cases hadd : s.addVariable binding value span with
  | error e => exact .failed
  | ok after =>
    obtain ⟨-, rfl⟩ := Scope.addVariable_eq_ok.1 hadd
    exact .done ⟨h.offers.withVariable _, rfl⟩

/-- The change of a variable. -/
theorem assign (name : String) (value : Value) :
    Pairs σ (Scope.Swaps cs cs')
      (do Eval.setScope ((← Eval.scope).assign name value))
      (do Eval.setScope ((← Eval.scope).assign name value)) :=
  fun _ _ h _ => .done (h.assign name value)

end Eval.Pairs

/-- An assignment. -/
theorem assignTo_swaps (name : String) (index : Option Value) (value : Value) (place span : Span) :
    Eval.Pairs σ (Scope.Swaps cs cs') (assignTo name index value place span)
      (assignTo name index value (σ place) (σ span)) := by
  intro s s' h writes
  rw [assignTo, assignTo]
  cases hs : s.var? name with
  | none =>
    rw [Eval.lookup_bind_of_unknown hs, Eval.lookup_bind_of_unknown ((h.var? name).trans hs)]
    exact .failed
  | some found =>
    rw [Eval.lookup_bind_of_var? hs, Eval.lookup_bind_of_var? ((h.var? name).trans hs)]
    cases found.binding.isMutable with
    | false => exact .failed
    | true =>
      cases index with
      | none => exact Eval.Pairs.assign name value s s' h writes
      | some index =>
        simp only [if_true, Value.withElementAt_mapSpan]
        exact (Eval.Pairs.lift _).bind (fun value _ => Eval.Pairs.assign name value) s s' h writes

/-! ## Hosts -/

/-- Under both hosts the calls that may happen go together, whatever functions there are beside
them, and loops are given as many rounds. -/
structure Host.Swaps (σ : Span → Span) (cs cs' : List Callee) (calls : String × Nat → Prop)
    (host host' : Host) : Prop where
  /-- Loops are given as many rounds. -/
  rounds : host'.rounds = host.rounds
  /-- A call that may happen does the same in both runs. -/
  call : ∀ key, calls key → ∀ (span : Span) (values : List Value), values.length = key.2 →
    Eval.Pairs σ (Scope.Swaps cs cs') (host.callNamed key.1 span values)
      (host'.callNamed key.1 (σ span) values)

section Hosts

variable {host host' : Host}

/-- Variables have the same values in both scopes. -/
theorem Host.Swaps.pairs (h : host.Swaps σ cs cs' calls host') :
    host.Pairs σ (Scope.Swaps cs cs') (fun _ => True) calls host' :=
  ⟨fun name _ _ _ hswap => congrArg _ (hswap.var? name), h.call⟩

/-! ## Expressions -/

namespace Expr

theorem evaluate_swaps (h : host.Swaps σ cs cs' calls host') (e : Expr)
    (hcalls : ∀ key ∈ e.calls, calls key) :
    Eval.Pairs σ (Scope.Swaps cs cs') (e.evaluate host) ((e.mapSpans σ).evaluate host') :=
  evaluate_pairs h.pairs e (fun _ _ => trivial) hcalls

theorem evaluateCondition_swaps (h : host.Swaps σ cs cs' calls host') (condition : Expr)
    (hcalls : ∀ key ∈ condition.calls, calls key) :
    Eval.Pairs σ (Scope.Swaps cs cs') (condition.evaluateCondition host)
      ((condition.mapSpans σ).evaluateCondition host') := by
  refine (evaluate_swaps h condition hcalls).bind fun value _ => ?_
  rw [span_mapSpans, Value.truth_mapSpan]
  exact .lift _

theorem evaluateOption_swaps (h : host.Swaps σ cs cs' calls host') (value : Option Expr)
    (hcalls : ∀ key ∈ optionCalls value, calls key) :
    Eval.Pairs σ (Scope.Swaps cs cs') (evaluateOption host value)
      (evaluateOption host' (value.map (mapSpans σ))) := by
  cases value with
  | none => exact .pure _
  | some e => exact evaluate_swaps h e hcalls

end Expr

/-! ## Statements -/

namespace Stmt

/-- An assignment: the index, if there is one, then the value. -/
theorem execute_assignment_swaps (h : host.Swaps σ cs cs' calls host') (receiver value : Expr)
    (span : Span) (hreceiver : ∀ key ∈ receiver.calls, calls key)
    (hvalue : ∀ key ∈ value.calls, calls key) :
    Eval.Pairs σ (Scope.Swaps cs cs') ((assignment receiver value span).execute host)
      (((assignment receiver value span).mapSpans σ).execute host') := by
  have hvalue := Expr.evaluate_swaps h value hvalue
  cases receiver with
  | var name binding place ty =>
    rw [mapSpans, Expr.mapSpans, execute, execute]
    exact hvalue.bind fun value _ =>
      (assignTo_swaps name none value place span).bind fun _ _ => .pure none
  | element name offset binding place ty =>
    rw [mapSpans, Expr.mapSpans, execute, execute]
    exact (Expr.evaluate_swaps h offset hreceiver).bind fun index _ =>
      hvalue.bind fun value _ =>
        (assignTo_swaps name (some index) value place span).bind fun _ _ => .pure none
  | _ => exact .fail (.invalidForm "assignment target must be a variable or list element" span)

mutual

/-- **A statement goes together with the statement whose spans are replaced**, if the calls in it
may happen. -/
theorem execute_swaps (h : host.Swaps σ cs cs' calls host') : ∀ stmt : Stmt,
    (∀ key ∈ stmt.calls, calls key) →
      Eval.Pairs σ (Scope.Swaps cs cs') (stmt.execute host) ((stmt.mapSpans σ).execute host')
  | .expression expr span, hcalls => by
    rw [mapSpans, execute, execute]
    exact (Expr.evaluate_swaps h expr hcalls).bind fun _ _ => .pure none
  | .declaration name typeName value binding span, hcalls => by
    rw [mapSpans, execute, execute]
    exact (Expr.evaluateOption_swaps h value hcalls).bind fun value _ =>
      (Eval.Pairs.declare (runVariable name) value span).bind fun _ _ => .pure none
  | .assignment receiver value span, hcalls => by
    rw [Stmt.calls, List.forall_mem_append] at hcalls
    exact execute_assignment_swaps h receiver value span hcalls.1 hcalls.2
  | .ifElse condition thenBody elseBody span, hcalls => by
    rw [Stmt.calls, List.forall_mem_append, List.forall_mem_append] at hcalls
    rw [mapSpans, execute, execute]
    refine (Expr.evaluateCondition_swaps h condition hcalls.1).bind fun holds _ => ?_
    cases holds with
    | true => exact (executeBlock_swaps h thenBody hcalls.2.1).inChild
    | false => exact (executeBlock_swaps h elseBody hcalls.2.2).inChild
  | .switch condition cases span, hcalls => by
    rw [Stmt.calls, List.forall_mem_append] at hcalls
    rw [mapSpans, execute, execute]
    exact (Expr.evaluate_swaps h condition hcalls.1).bind fun v _ =>
      executeCases_swaps h v cases hcalls.2
  | .whileLoop condition body span, hcalls => by
    rw [Stmt.calls, List.forall_mem_append] at hcalls
    rw [mapSpans, execute, execute, h.rounds]
    exact Eval.Pairs.loop (Expr.evaluateCondition_swaps h condition hcalls.1)
      (executeBlock_swaps h body hcalls.2).inChild host.rounds
  | .ret value span, hcalls => by
    rw [mapSpans, execute, execute]
    exact (Expr.evaluate_swaps h value hcalls).bind fun v _ => .pure (some v)

/-- So does a block. -/
theorem executeBlock_swaps (h : host.Swaps σ cs cs' calls host') : ∀ block : List Stmt,
    (∀ key ∈ blockCalls block, calls key) →
      Eval.Pairs σ (Scope.Swaps cs cs') (executeBlock host block)
        (executeBlock host' (mapBlockSpans σ block))
  | [], _ => .pure none
  | stmt :: rest, hcalls => by
    rw [blockCalls, List.forall_mem_append] at hcalls
    rw [mapBlockSpans, executeBlock, executeBlock]
    refine (execute_swaps h stmt hcalls.1).bind fun flow _ => ?_
    cases flow with
    | none => exact executeBlock_swaps h rest hcalls.2
    | some v => exact .pure (some v)

/-- So does the choice of an arm of a switch. -/
theorem executeCases_swaps (h : host.Swaps σ cs cs' calls host') (v : Value) : ∀ arms : List Case,
    (∀ key ∈ casesCalls arms, calls key) →
      Eval.Pairs σ (Scope.Swaps cs cs') (executeCases host v arms)
        (executeCases host' v (mapCasesSpans σ arms))
  | [], _ => .pure none
  | .mk (some e) body span :: rest, hcalls => by
    rw [casesCalls, List.forall_mem_append, List.forall_mem_append] at hcalls
    rw [mapCasesSpans, Case.mapSpans, Option.map_some, executeCases_value, executeCases_value]
    refine (Expr.evaluate_swaps h e hcalls.1).bind fun x _ => ?_
    by_cases hsame : x.same v = true
    · rw [if_pos hsame, if_pos hsame]
      exact (executeBlock_swaps h body hcalls.2.1).inChild
    · rw [if_neg hsame, if_neg hsame]
      exact executeCases_swaps h v rest hcalls.2.2
  | .mk none body span :: rest, hcalls => by
    rw [casesCalls, List.forall_mem_append, List.forall_mem_append] at hcalls
    rw [mapCasesSpans, Case.mapSpans, Option.map_none, executeCases_default, executeCases_default]
    exact (executeBlock_swaps h body hcalls.2.1).inChild

end

end Stmt

/-! ## Calls -/

/-- Arguments are declared under the same names. -/
theorem declareArguments_swaps (span : Span) : ∀ (names : List String) (values : List Value),
    Eval.Pairs σ (Scope.Swaps cs cs') (declareArguments span names values)
      (declareArguments (σ span) names values)
  | name :: names, value :: values => by
    rw [declareArguments, declareArguments]
    exact (Eval.Pairs.declare (runVariable name) value span).bind fun _ _ =>
      declareArguments_swaps span names values
  | [], _ => .pure ()
  | _ :: _, [] => .pure ()

/-- A call of the same function, if the calls in its body may happen. -/
theorem FunctionDef.apply_swaps (h : host.Swaps σ cs cs' calls host') (f : FunctionDef)
    (arguments : List Value) (hcalls : ∀ key ∈ Stmt.blockCalls f.body, calls key) :
    Eval.Pairs σ (Scope.Swaps cs cs') (f.apply host arguments)
      ((f.mapSpans σ).apply host' arguments) :=
  .inCall ((declareArguments_swaps f.span f.parameters arguments).bind fun _ _ =>
    (Stmt.executeBlock_swaps h f.body hcalls).bind fun _ _ => .pure _)

end Hosts

section Targets

variable {sink : Sink} {fs fs' : List FunctionDef}

/-- Two targets that mean the same: a built-in function, or a definition that stands at a position
of each program and calls nothing else than what may be called. -/
inductive Target.Pairs (σ : Span → Span) (calls : String × Nat → Prop)
    (fs fs' : List FunctionDef) : Target → Target → Prop where
  /-- The same built-in function. -/
  | builtin (function : Builtin) : Pairs σ calls fs fs' (.builtin function) (.builtin function)
  /-- The same definition, the second time with its spans replaced. -/
  | declared {i j : Nat} {f : FunctionDef} (hf : fs[i]? = some f)
      (hf' : fs'[j]? = some (f.mapSpans σ)) (hcalls : ∀ key ∈ Stmt.blockCalls f.body, calls key) :
      Pairs σ calls fs fs' (.declared i) (.declared j)

/-- What may be called is found among both lists of functions, and means the same, or among
neither. -/
def Callee.Pairs (σ : Span → Span) (calls : String × Nat → Prop) (fs fs' : List FunctionDef)
    (cs cs' : List Callee) : Prop :=
  ∀ key, calls key → Option.Rel (fun c c' => c.target.Pairs σ calls fs fs' c'.target)
    (Callee.among? cs key.1 key.2) (Callee.among? cs' key.1 key.2)

/-- If calls of the same definition go together, calls by name do. -/
theorem Host.swaps_of_calls {rounds : Nat} {call call' : Nat → List Value → Eval Value}
    (hpairs : Callee.Pairs σ calls fs fs' cs cs')
    (h : ∀ {i j f}, fs[i]? = some f → fs'[j]? = some (f.mapSpans σ) →
      (∀ key ∈ Stmt.blockCalls f.body, calls key) → ∀ arguments,
        Eval.Pairs σ (Scope.Swaps cs cs') (call i arguments) (call' j arguments)) :
    Host.Swaps σ cs cs' calls ⟨sink, rounds, call⟩ ⟨sink, rounds, call'⟩ := by
  have htargets : ∀ {target target' : Target}, target.Pairs σ calls fs fs' target' →
      ∀ values, Eval.Pairs σ (Scope.Swaps cs cs') (target.invoke ⟨sink, rounds, call⟩ values)
        (target'.invoke ⟨sink, rounds, call'⟩ values) := by
    intro target target' htarget values
    cases htarget with
    | builtin function => exact Builtin.invoke_pairs sink values function
    | declared hf hf' hcalls => exact h hf hf' hcalls values
  refine ⟨rfl, ?_⟩
  rintro ⟨name, arity⟩ hkey span values rfl
  refine Host.callNamed_pairs fun s s' hswap => ?_
  have hfound := hpairs _ hkey
  rw [← hswap.offers.callee?, ← hswap.offers'.callee?] at hfound
  generalize s.callee? name values.length = found at hfound ⊢
  generalize s'.callee? name values.length = found' at hfound ⊢
  cases hfound with
  | none => exact .none
  | some htarget => exact .some (htargets htarget values)

/-- **Calls go together to any depth**, by induction on the depth: a call that nests deeper is a
call by name in the body of a function. -/
theorem callWithin_swaps (hpairs : Callee.Pairs σ calls fs fs' cs cs') : ∀ (depth : Nat) {i j f},
    fs[i]? = some f → fs'[j]? = some (f.mapSpans σ) →
      (∀ key ∈ Stmt.blockCalls f.body, calls key) → ∀ arguments,
        Eval.Pairs σ (Scope.Swaps cs cs') (callWithin sink fs depth i arguments)
          (callWithin sink fs' depth j arguments) := by
  intro depth
  induction depth with
  | zero => exact fun _ _ _ _ => .unfinished
  | succ depth ih =>
    intro i j f hf hf' hcalls arguments
    rw [callWithin, callWithin, hf, hf']
    exact FunctionDef.apply_swaps (Host.swaps_of_calls hpairs ih) f arguments hcalls

end Targets

end ImpTree
