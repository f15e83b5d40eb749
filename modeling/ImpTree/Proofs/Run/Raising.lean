import ImpTree.Proofs.Run.Clashes
import ImpTree.Proofs.Run.Rounds
import Mathlib.Order.Filter.AtTopBot.Basic

/-!
# Failures reach the end of a run

If what there is to do at a moment fails, so does what was to be done at the moments before it, and
with the same error after the same writes.  That something fails is said for all numbers of rounds
from some number on.

* `Task.Raises` — with enough rounds, a task fails.
* `Program.Step.raises` — **a failure goes back over a step.**
* `Program.Clash.raises` — a clash is a failure.
* `Program.Reaches.raises` — a program fails if a moment of its run does.
-/

namespace ImpTree

open Filter (atTop eventually_atTop eventually_ge_atTop)

variable {α : Type} {p : Program} {sink : Sink} {s s₁ : State} {e : Error} {writes : List String}

/-! ## With enough rounds -/

/-- The computation grows with the host. -/
def Host.Grows (m : Host → Eval α) : Prop :=
  ∀ ⦃host host' : Host⦄, host.Approximates host' → (m host).Approximates (m host')

/-- What ends within a number of rounds ends within all larger numbers. -/
theorem Program.Ends.eventually {m : Host → Eval α} {a : α} (hm : Host.Grows m)
    (h : p.Ends sink m s a s₁) : ∀ᶠ rounds in atTop, m (p.host sink rounds) s = .done a s₁ := by
  obtain ⟨n, hn⟩ := h
  filter_upwards [eventually_ge_atTop n] with n' hle
  exact (hm (p.host_approximates sink hle)).of_done hn

/-- An expression that ends does so with enough rounds. -/
theorem Program.Ends.evaluates {x : Expr} {v : Value}
    (h : p.Ends sink (fun host => x.evaluate host) s v s₁) :
    ∀ᶠ rounds in atTop, x.evaluate (p.host sink rounds) s = .done v s₁ :=
  h.eventually fun _ _ hhost => Expr.evaluate_approximates hhost x

/-- A condition that ends does so with enough rounds. -/
theorem Program.Ends.holds {x : Expr} {holds : Bool}
    (h : p.Ends sink (fun host => x.evaluate host) s (.boolean holds) s₁) :
    ∀ᶠ rounds in atTop, x.evaluateCondition (p.host sink rounds) s = .done holds s₁ := by
  filter_upwards [h.evaluates] with n hn
  rw [Expr.evaluateCondition, Eval.bind_of_done hn]
  rfl

/-- With enough rounds, the task fails with the error after the writes. -/
def Task.Raises (p : Program) (sink : Sink) (s : State) (e : Error) (writes : List String) :
    Task → Prop
  | .program => ∀ᶠ rounds in atTop, p.start (p.host sink rounds) s = .failed e writes
  | .globals rest =>
    ∀ᶠ rounds in atTop, declareGlobals (p.host sink rounds) rest s = .failed e writes
  | .call index arguments =>
    ∀ᶠ rounds in atTop, (p.host sink rounds).call index arguments s = .failed e writes
  | .block stmts =>
    ∀ᶠ rounds in atTop, Stmt.executeBlock (p.host sink rounds) stmts s = .failed e writes
  | .stmt statement =>
    ∀ᶠ rounds in atTop, statement.execute (p.host sink rounds) s = .failed e writes
  | .cases condition arms =>
    ∀ᶠ rounds in atTop, Stmt.executeCases (p.host sink rounds) condition arms s = .failed e writes
  | .exprs es => ∀ᶠ rounds in atTop, Expr.evaluateAll (p.host sink rounds) es s = .failed e writes
  | .expr x => ∀ᶠ rounds in atTop, x.evaluate (p.host sink rounds) s = .failed e writes
  | .finished => False

/-! ## Parts of a task -/

section Steps

variable {known : Scope} {waiting : List Waiting} {m' : Moment}

/-- A condition fails with the expression that it is. -/
theorem Task.Raises.condition {x : Expr} (h : Task.Raises p sink s e writes (.expr x)) :
    ∀ᶠ rounds in atTop, x.evaluateCondition (p.host sink rounds) s = .failed e writes := by
  filter_upwards [h] with n hn
  rw [Expr.evaluateCondition, Eval.bind_of_failed hn]

/-- A block fails in a frame of its own if it fails. -/
theorem Task.Raises.inChild {body : List Stmt}
    (h : Task.Raises p sink s.enter e writes (.block body)) :
    ∀ᶠ rounds in atTop,
      Eval.inChild (Stmt.executeBlock (p.host sink rounds) body) s = .failed e writes := by
  filter_upwards [h] with n hn
  exact Eval.inChild_of_failed hn

/-- An expression fails with its parts and with the functions that it calls. -/
theorem Program.Step.raises_expr {x : Expr}
    (hstep : p.Step sink ⟨.expr x, s, known, waiting⟩ m')
    (h : m'.task.Raises p sink m'.state e writes) : Task.Raises p sink s e writes (.expr x) := by
  cases hstep with
  | inner => exact h
  | left =>
    filter_upwards [h] with n hn
    rw [Expr.evaluate, Eval.bind_of_failed hn]
  | undecided hop hleft hopen =>
    filter_upwards [hleft.evaluates, h] with n hl hr
    rw [Expr.evaluate, Eval.bind_of_done hl, if_pos hop]
    show (if _ then _ else _ : Eval Value) _ = _
    rw [if_neg hopen, Eval.bind_of_failed hr]
  | right hop hleft =>
    filter_upwards [hleft.evaluates, h] with n hl hr
    rw [Expr.evaluate, Eval.bind_of_done hl, if_neg hop, Eval.bind_of_failed hr]
  | offset =>
    filter_upwards [h] with n hn
    rw [Expr.evaluate, Eval.bind_of_failed hn]
  | arguments =>
    filter_upwards [h] with n hn
    rw [Expr.evaluate, Eval.bind_of_failed hn]
  | @callee _ arguments _ _ _ values c index _ s₁ _ _ hends hc htarget =>
    have harguments := hends.eventually fun _ _ hhost =>
      Expr.evaluateAll_approximates hhost arguments
    filter_upwards [harguments, h] with n hargs hcall
    rw [Expr.evaluate, Eval.bind_of_done hargs, Eval.bind_of_done Eval.scope_apply,
      Scope.findFunction_eq_ok.2 hc]
    show c.target.invoke (p.host sink n) values s₁ = _
    rw [htarget]
    exact hcall
  | elements =>
    filter_upwards [h] with n hn
    rw [Expr.evaluate, Eval.bind_of_failed hn]
  | exprFinished _ => exact h.elim

/-- Several expressions fail with the first one and with the rest. -/
theorem Program.Step.raises_exprs {es : List Expr}
    (hstep : p.Step sink ⟨.exprs es, s, known, waiting⟩ m')
    (h : m'.task.Raises p sink m'.state e writes) : Task.Raises p sink s e writes (.exprs es) := by
  cases hstep with
  | firstExpr =>
    filter_upwards [h] with n hn
    rw [Expr.evaluateAll, Eval.bind_of_failed hn]
  | nextExprs hends =>
    filter_upwards [hends.evaluates, h] with n hv hrest
    rw [Expr.evaluateAll, Eval.bind_of_done hv, Eval.bind_of_failed hrest]

/-- The arms of a switch fail with the value and the body of the first arm, and with the rest. -/
theorem Program.Step.raises_cases {v : Value} {arms : List Case}
    (hstep : p.Step sink ⟨.cases v arms, s, known, waiting⟩ m')
    (h : m'.task.Raises p sink m'.state e writes) :
    Task.Raises p sink s e writes (.cases v arms) := by
  cases hstep with
  | armValue =>
    filter_upwards [h] with n hn
    rw [Stmt.executeCases_value, Eval.bind_of_failed hn]
  | armBody hvalue hsame =>
    filter_upwards [hvalue.evaluates, Task.Raises.inChild h] with n hx hbody
    rw [Stmt.executeCases_value, Eval.bind_of_done hx, if_pos hsame]
    exact hbody
  | nextArms hvalue hsame =>
    filter_upwards [hvalue.evaluates, h] with n hx hrest
    rw [Stmt.executeCases_value, Eval.bind_of_done hx, if_neg (hsame ▸ Bool.false_ne_true)]
    exact hrest
  | defaultBody =>
    filter_upwards [Task.Raises.inChild h] with n hn
    rw [Stmt.executeCases_default]
    exact hn

/-- A statement fails with its expressions and its blocks. -/
theorem Program.Step.raises_stmt {stmt : Stmt}
    (hstep : p.Step sink ⟨.stmt stmt, s, known, waiting⟩ m')
    (h : m'.task.Raises p sink m'.state e writes) : Task.Raises p sink s e writes (.stmt stmt) := by
  cases hstep with
  | expression =>
    filter_upwards [h] with n hn
    rw [Stmt.execute, Eval.bind_of_failed hn]
  | initial =>
    filter_upwards [h] with n hn
    rw [Stmt.execute, Expr.evaluateOption, Eval.bind_of_failed hn]
  | assigned =>
    filter_upwards [h] with n hn
    rw [Stmt.execute, Eval.bind_of_failed hn]
  | assignedOffset =>
    filter_upwards [h] with n hn
    rw [Stmt.execute, Eval.bind_of_failed hn]
  | assignedElement hoffset =>
    filter_upwards [hoffset.evaluates, h] with n hindex hvalue
    rw [Stmt.execute, Eval.bind_of_done hindex, Eval.bind_of_failed hvalue]
  | ifCondition =>
    filter_upwards [Task.Raises.condition h] with n hn
    rw [Stmt.execute, Eval.bind_of_failed hn]
  | thenBody hcondition =>
    filter_upwards [hcondition.holds, Task.Raises.inChild h] with n hholds hbody
    rw [Stmt.execute, Eval.bind_of_done hholds]
    exact hbody
  | elseBody hcondition =>
    filter_upwards [hcondition.holds, Task.Raises.inChild h] with n hholds hbody
    rw [Stmt.execute, Eval.bind_of_done hholds]
    exact hbody
  | switchCondition =>
    filter_upwards [h] with n hn
    rw [Stmt.execute, Eval.bind_of_failed hn]
  | arms hcondition =>
    filter_upwards [hcondition.evaluates, h] with n hv harms
    rw [Stmt.execute, Eval.bind_of_done hv]
    exact harms
  | whileCondition =>
    filter_upwards [Task.Raises.condition h, eventually_ge_atTop 1] with n hn hpos
    obtain ⟨k, rfl⟩ : ∃ k, n = k + 1 := ⟨n - 1, by omega⟩
    rw [Stmt.execute]
    exact Eval.loop_of_condition_failed hn
  | whileBody hcondition =>
    have hchild := Task.Raises.inChild h
    filter_upwards [hcondition.holds, hchild, eventually_ge_atTop 1] with n hholds hbody hpos
    obtain ⟨k, rfl⟩ : ∃ k, n = k + 1 := ⟨n - 1, by omega⟩
    rw [Stmt.execute]
    exact Eval.loop_of_body_failed hholds hbody
  | @again condition body span _ _ s₂ _ _ hcondition hround =>
    obtain ⟨n₀, hrest⟩ := Filter.Eventually.exists h
    have hbody := hround.eventually fun _ _ hhost =>
      (Stmt.executeBlock_approximates hhost body).inChild
    filter_upwards [hcondition.holds, hbody, eventually_ge_atTop (n₀ + 1)] with n hholds hdone hle
    obtain ⟨k, rfl⟩ : ∃ k, n = k + 1 := ⟨n - 1, by omega⟩
    -- the rounds that are left after this one are enough for the rest of the loop
    have hhost := p.host_approximates sink (Nat.le_of_succ_le hle)
    have hloop := Eval.Approximates.loop (Expr.evaluateCondition_approximates hhost condition)
      (Stmt.executeBlock_approximates hhost body).inChild (Nat.le_of_succ_le_succ hle)
    rw [Stmt.execute] at hrest ⊢
    exact (Eval.loop_of_round hholds hdone).trans (hloop.of_failed hrest)
  | result =>
    filter_upwards [h] with n hn
    rw [Stmt.execute, Eval.bind_of_failed hn]
  | stmtFinished _ => exact h.elim

/-- A block fails with its first statement and with the rest. -/
theorem Program.Step.raises_block {stmts : List Stmt}
    (hstep : p.Step sink ⟨.block stmts, s, known, waiting⟩ m')
    (h : m'.task.Raises p sink m'.state e writes) :
    Task.Raises p sink s e writes (.block stmts) := by
  cases hstep with
  | firstStmt =>
    filter_upwards [h] with n hn
    rw [Stmt.executeBlock, Eval.bind_of_failed hn]
  | @nextStmts stmt _ _ _ _ _ hstmt =>
    have hends := hstmt.eventually fun _ _ hhost => Stmt.execute_approximates hhost stmt
    filter_upwards [hends, h] with n hn hrest
    rw [Stmt.executeBlock, Eval.bind_of_done hn]
    exact hrest

/-- A call fails with the body of the function. -/
theorem Program.Step.raises_call {index : Nat} {arguments : List Value}
    (hstep : p.Step sink ⟨.call index arguments, s, known, waiting⟩ m')
    (h : m'.task.Raises p sink m'.state e writes) :
    Task.Raises p sink s e writes (.call index arguments) := by
  cases hstep with
  | @body _ _ f _ s₁ _ _ hf harguments =>
    obtain ⟨n₀, hn₀⟩ := eventually_atTop.1 h
    refine eventually_atTop.2 ⟨n₀ + 1, ?_⟩
    intro n hn
    -- the body has one round less than the call
    obtain ⟨n, rfl⟩ : ∃ m, n = m + 1 := ⟨n - 1, by omega⟩
    have hbody : Stmt.executeBlock (p.host sink n) f.body s₁ = .failed e writes :=
      hn₀ n (by omega)
    have hdo : (declareArguments f.span f.parameters arguments >>= fun _ =>
        Stmt.executeBlock (p.host sink n) f.body >>= fun flow =>
          (pure (flow.getD .nil) : Eval Value)) s.enterCall = .failed e writes := by
      rw [Eval.bind_of_done harguments, Eval.bind_of_failed hbody]
    show callWithin sink p.functions (n + 1) index arguments s = _
    rw [callWithin, hf]
    exact Eval.inCall_of_failed hdo
  | callFinished _ => exact h.elim

/-- Globals fail with the first one and with the rest. -/
theorem Program.Step.raises_globals {globals : List Global}
    (hstep : p.Step sink ⟨.globals globals, s, known, waiting⟩ m')
    (h : m'.task.Raises p sink m'.state e writes) :
    Task.Raises p sink s e writes (.globals globals) := by
  cases hstep with
  | globalValue hvalue =>
    filter_upwards [h] with n hn
    rw [declareGlobals, hvalue, Expr.evaluateOption, Eval.bind_of_failed hn]
  | @nextGlobal g _ _ _ _ _ _ _ hvalue hdeclare =>
    have hends := hvalue.eventually fun _ _ hhost =>
      Expr.evaluateOption_approximates hhost g.value
    filter_upwards [hends, h] with n hn hrest
    rw [declareGlobals, Eval.bind_of_done hn, Eval.bind_of_done hdeclare]
    exact hrest

/-- A program fails with its globals and with `main`. -/
theorem Program.Step.raises_program (hstep : p.Step sink ⟨.program, s, known, waiting⟩ m')
    (h : m'.task.Raises p sink m'.state e writes) : Task.Raises p sink s e writes .program := by
  cases hstep with
  | globals =>
    filter_upwards [h] with n hn
    rw [Program.start, Eval.bind_of_failed hn]
  | main hglobals hfunctions hmain =>
    have hends := hglobals.eventually fun _ _ hhost => declareGlobals_approximates hhost p.globals
    filter_upwards [hends, h] with n hn hcall
    rw [Program.start, Eval.bind_of_done hn, Eval.bind_of_done hfunctions,
      Eval.bind_of_done Eval.scope_apply, hmain, Eval.lift_ok, pure_bind,
      Eval.bind_of_failed hcall]

end Steps

/-! ## Clashes -/

/-- A condition that is missing fails. -/
theorem Program.Ends.missing_condition {x : Expr}
    (h : p.Ends sink (fun host => x.evaluate host) s .nil s₁) :
    ∀ᶠ rounds in atTop, x.evaluateCondition (p.host sink rounds) s =
      .failed (Value.mismatch "Boolean" .nil x.span) s₁.writes := by
  filter_upwards [h.evaluates] with n hn
  rw [Expr.evaluateCondition, Eval.bind_of_done hn]
  rfl

/-- A clash is a failure. -/
theorem Program.Clash.raises {task : Task} (h : p.Clash sink task s e) :
    ∃ writes, task.Raises p sink s e writes := by
  cases h with
  | @logicLeft _ _ _ _ _ _ s₁ hop hleft =>
    refine ⟨s₁.writes, ?_⟩
    filter_upwards [hleft.evaluates] with n hl
    rw [Expr.evaluate, Eval.bind_of_done hl, if_pos hop]
    rfl
  | @logicRight _ _ _ _ _ _ _ _ s₂ hop hleft hopen hright =>
    refine ⟨s₂.writes, ?_⟩
    filter_upwards [hleft.evaluates, hright.evaluates] with n hl hr
    rw [Expr.evaluate, Eval.bind_of_done hl, if_pos hop]
    show (if _ then _ else _ : Eval Value) _ = _
    rw [if_neg hopen, Eval.bind_of_done hr]
    rfl
  | @operand _ _ _ _ _ _ _ _ _ s₂ _ hop hleft hright _ happly =>
    refine ⟨s₂.writes, ?_⟩
    filter_upwards [hleft.evaluates, hright.evaluates] with n hl hr
    rw [Expr.evaluate, Eval.bind_of_done hl, if_neg hop, Eval.bind_of_done hr, happly]
    rfl
  | @ordering _ _ _ _ _ _ _ _ _ s₂ hop hleft hright hkind =>
    have hlogic := hop.not_logic
    refine ⟨s₂.writes, ?_⟩
    filter_upwards [hleft.evaluates, hright.evaluates] with n hl hr
    rw [Expr.evaluate, Eval.bind_of_done hl, if_neg hlogic, Eval.bind_of_done hr,
      BinaryOp.apply_of_kind_ne hop hkind]
    rfl
  | @element _ _ _ _ _ _ _ _ s₁ _ hoffset hfound _ helement =>
    refine ⟨s₁.writes, ?_⟩
    filter_upwards [hoffset.evaluates] with n ho
    rw [Expr.evaluate, Eval.bind_of_done ho, Eval.bind_of_done (Eval.lookup_of_var? hfound),
      helement]
    rfl
  | @ifCondition _ _ _ _ _ s₁ hcondition =>
    refine ⟨s₁.writes, ?_⟩
    filter_upwards [hcondition.missing_condition] with n hc
    rw [Stmt.execute, Eval.bind_of_failed hc]
  | @whileCondition _ _ _ _ s₁ hcondition =>
    refine ⟨s₁.writes, ?_⟩
    filter_upwards [hcondition.missing_condition, eventually_ge_atTop 1] with n hc hpos
    obtain ⟨k, rfl⟩ : ∃ k, n = k + 1 := ⟨n - 1, by omega⟩
    rw [Stmt.execute]
    exact Eval.loop_of_condition_failed hc
  | @assignedElement _ _ _ _ _ _ _ _ _ _ _ _ s₂ _ hoffset hvalue hfound hmutable _ helement =>
    refine ⟨s₂.writes, ?_⟩
    filter_upwards [hoffset.evaluates, hvalue.evaluates] with n ho hv
    rw [Stmt.execute, Eval.bind_of_done ho, Eval.bind_of_done hv,
      Eval.bind_of_failed (assignTo_element_failed hfound hmutable helement)]
  | @immutable _ _ _ _ _ _ _ _ _ s₁ hvalue hfound himmutable =>
    refine ⟨s₁.writes, ?_⟩
    filter_upwards [hvalue.evaluates] with n hv
    rw [Stmt.execute, Eval.bind_of_done hv,
      Eval.bind_of_failed (assignTo_immutable hfound himmutable)]
  | @immutableElement _ _ _ _ _ _ _ _ _ _ _ _ s₂ hoffset hvalue hfound himmutable =>
    refine ⟨s₂.writes, ?_⟩
    filter_upwards [hoffset.evaluates, hvalue.evaluates] with n ho hv
    rw [Stmt.execute, Eval.bind_of_done ho, Eval.bind_of_done hv,
      Eval.bind_of_failed (assignTo_immutable hfound himmutable)]

/-! ## Runs -/

/-- **A failure goes back over a step**: if what follows directly from a moment fails, so does the
moment. -/
theorem Program.Step.raises {m m' : Moment} (hstep : p.Step sink m m')
    (h : m'.task.Raises p sink m'.state e writes) : m.task.Raises p sink m.state e writes := by
  obtain ⟨task, s, known, waiting⟩ := m
  cases task with
  | program => exact hstep.raises_program h
  | globals rest => exact hstep.raises_globals h
  | call index arguments => exact hstep.raises_call h
  | block stmts => exact hstep.raises_block h
  | stmt stmt => exact hstep.raises_stmt h
  | cases condition arms => exact hstep.raises_cases h
  | exprs es => exact hstep.raises_exprs h
  | expr x => exact hstep.raises_expr h
  | finished => cases hstep

/-- **A program fails if a moment of its run does**, with the same error after the same writes. -/
theorem Program.Reaches.raises {m : Moment} (hm : p.Reaches sink m)
    (h : m.task.Raises p sink m.state e writes) :
    ∀ᶠ rounds in atTop, p.start (p.host sink rounds) ⟨.initial, []⟩ = .failed e writes := by
  have hstart : Moment.start.task.Raises p sink Moment.start.state e writes := by
    induction hm with
    | refl => exact h
    | tail _ hstep ih => exact ih (hstep.raises h)
  exact hstart

end ImpTree
