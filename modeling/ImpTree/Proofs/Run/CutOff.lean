import ImpTree.Proofs.Run.Moments
import ImpTree.Proofs.Run.Refusals
import ImpTree.Tree.Build
import Mathlib

/-!
# What a refused write does to a run

A run to a sink that refuses a write is the run to a sink that takes everything, cut off at this
write.

* `Program.CutsOff` — what is computed in both runs, and that it is cut off in one of them.
* `Program.Step.cut`, `Program.Step.uncut` — **the steps of the run that is cut off** are those of
  the full run before the refused write.
* `Program.start_eq`, `RunResult.flushed` — when a run is flushed, and what comes of it.
* `Program.refusal_cuts` — **a refused write cuts the output and nothing else.**
-/

namespace ImpTree

variable {α : Type} {sink : Sink}

/-! ## Programs -/

/-- Two hosts under which everything is cut off: the first one takes everything that is written. -/
theorem Host.related_of_calls {host host' : Host} (hsink : host.sink = .unbounded)
    (hsink' : host'.sink = sink) (hrounds : host'.rounds = host.rounds)
    (hcall : ∀ index arguments,
      Eval.Cuts sink (host.call index arguments) (host'.call index arguments)) :
    host.Related (Eval.Cuts sink) (fun _ => True) True host' := by
  refine .of_calls Eval.Cuts.congruence (.of_silent .scope) (fun text htext => ?_) hcall
    fun hcondition hbody => ?_
  · rw [hsink, hsink']
    exact .write htext
  · rw [hrounds]
    exact Eval.Cuts.congruence.loop .unfinished hcondition hbody _

/-- Calls are cut off, by induction on their depth. -/
theorem callWithin_cuts (functions : List FunctionDef) : ∀ depth index arguments,
    Eval.Cuts sink (callWithin .unbounded functions depth index arguments)
      (callWithin sink functions depth index arguments) := by
  intro depth
  induction depth with
  | zero =>
    intro index arguments
    exact .unfinished
  | succ depth ih =>
    intro index arguments
    rw [callWithin, callWithin]
    cases functions[index]? with
    | none => exact .of_silent (.fail _)
    | some f =>
      have hhost : Host.Related (Eval.Cuts sink) (fun _ => True) True
          ⟨.unbounded, depth, callWithin .unbounded functions depth⟩
          ⟨sink, depth, callWithin sink functions depth⟩ := Host.related_of_calls rfl rfl rfl ih
      exact FunctionDef.apply_related Eval.Cuts.congruence hhost f arguments
        (fun _ _ => trivial) (fun _ _ => trivial) fun _ _ _ => trivial

/-- In a run to the sink, the computation is cut off. -/
def Program.CutsOff (p : Program) (sink : Sink) (m : Host → Eval α) : Prop :=
  ∀ rounds, Eval.Cuts sink (m (p.host .unbounded rounds)) (m (p.host sink rounds))

namespace Program

variable {p : Program}

theorem host_related (p : Program) (sink : Sink) (rounds : Nat) :
    (p.host .unbounded rounds).Related (Eval.Cuts sink) (fun _ => True) True
      (p.host sink rounds) :=
  Host.related_of_calls rfl rfl rfl (callWithin_cuts p.functions rounds)

namespace CutsOff

theorem expr (e : Expr) : p.CutsOff sink fun host => e.evaluate host := fun rounds =>
  Expr.evaluate_related Eval.Cuts.congruence (p.host_related sink rounds) e
    (fun _ _ => trivial) fun _ _ => trivial

theorem exprs (es : List Expr) : p.CutsOff sink fun host => Expr.evaluateAll host es :=
  fun rounds =>
    Expr.evaluateAll_related Eval.Cuts.congruence (p.host_related sink rounds) es
      (fun _ _ => trivial) fun _ _ => trivial

theorem option (value : Option Expr) : p.CutsOff sink fun host => Expr.evaluateOption host value :=
  fun rounds =>
    Expr.evaluateOption_related Eval.Cuts.congruence (p.host_related sink rounds) value
      (fun _ _ => trivial) fun _ _ => trivial

theorem stmt (stmt : Stmt) : p.CutsOff sink fun host => stmt.execute host := fun rounds =>
  Stmt.execute_related Eval.Cuts.congruence (p.host_related sink rounds) stmt (fun _ _ => trivial)
    (fun _ _ => trivial) fun _ _ _ => trivial

theorem block (body : List Stmt) :
    p.CutsOff sink fun host => Eval.inChild (Stmt.executeBlock host body) := fun rounds =>
  .inChild (Stmt.executeBlock_related Eval.Cuts.congruence (p.host_related sink rounds) body
    (fun _ _ => trivial) (fun _ _ => trivial) fun _ _ _ => trivial)

theorem call (index : Nat) (arguments : List Value) :
    p.CutsOff sink fun host => host.call index arguments := fun rounds =>
  callWithin_cuts p.functions rounds index arguments

theorem globals (globals : List Global) : p.CutsOff sink fun host => declareGlobals host globals :=
  fun rounds =>
    declareGlobals_related Eval.Cuts.congruence (p.host_related sink rounds) globals
      (fun _ _ _ _ => trivial) fun _ _ _ _ => trivial

end CutsOff

/-! ### Steps -/

variable {m : Host → Eval α} {s t : State} {a : α}

/-- What ends in the run that is cut off ends in the full run, and all its writes are accepted. -/
theorem Ends.cut (h : p.Ends sink m s a t) (hm : p.CutsOff sink m) (hs : sink.Accepts s.writes) :
    p.Ends .unbounded m s a t ∧ sink.Accepts t.writes := by
  obtain ⟨rounds, h⟩ := h
  have hcuts := (hm rounds).cuts s hs
  rw [h] at hcuts
  exact ⟨⟨rounds, hcuts.of_done.1⟩, hcuts.of_done.2⟩

/-- What ends in the full run with writes that are all accepted ends in the run that is cut off. -/
theorem Ends.uncut (h : p.Ends .unbounded m s a t) (hm : p.CutsOff sink m)
    (ht : sink.Accepts t.writes) : p.Ends sink m s a t ∧ sink.Accepts s.writes := by
  obtain ⟨rounds, h⟩ := h
  have hs : sink.Accepts s.writes := by
    obtain ⟨added, hadded, -⟩ := (hm rounds).appends s t.writes (by rw [h]; rfl)
    rw [hadded] at ht
    exact ht.of_append
  have hcuts := (hm rounds).cuts s hs
  rw [h] at hcuts
  exact ⟨⟨rounds, hcuts.eq_of_accepts rfl ht⟩, hs⟩

variable {x y : Moment}

/-- **A step of the run that is cut off is a step of the full run**, before the write that is
refused. -/
theorem Step.cut (h : p.Step sink x y) (hx : sink.Accepts x.state.writes) :
    p.Step .unbounded x y ∧ sink.Accepts y.state.writes := by
  cases h with
  | main hglobals hfunctions hmain =>
    obtain ⟨hglobals, hs⟩ := hglobals.cut (.globals _) hx
    rw [← (declareFunctions_silent _ _).of_done hfunctions] at hs
    exact ⟨.main hglobals hfunctions hmain, hs⟩
  | globalValue hvalue => exact ⟨.globalValue hvalue, hx⟩
  | globals | firstStmt | expression | initial | assigned | assignedOffset | ifCondition
  | switchCondition | whileCondition | result | armValue | defaultBody | firstExpr | inner | left
  | offset | arguments | elements => exact ⟨by constructor, hx⟩
  | nextGlobal hvalue hdeclare =>
    obtain ⟨hvalue, hs⟩ := hvalue.cut (.option _) hx
    rw [← (Eval.Silent.declare _ _ _).of_done hdeclare] at hs
    exact ⟨.nextGlobal hvalue hdeclare, hs⟩
  | body hf harguments =>
    have hsame := (declareArguments_silent _ _ _).of_done harguments
    exact ⟨.body hf harguments, by rw [hsame]; exact hx⟩
  | nextStmts hstmt => exact (hstmt.cut (.stmt _) hx).imp_left .nextStmts
  | assignedElement hoffset => exact (hoffset.cut (.expr _) hx).imp_left .assignedElement
  | thenBody hcondition => exact (hcondition.cut (.expr _) hx).imp_left .thenBody
  | elseBody hcondition => exact (hcondition.cut (.expr _) hx).imp_left .elseBody
  | arms hcondition => exact (hcondition.cut (.expr _) hx).imp_left .arms
  | whileBody hcondition => exact (hcondition.cut (.expr _) hx).imp_left .whileBody
  | again hcondition hbody =>
    obtain ⟨hcondition, hs⟩ := hcondition.cut (.expr _) hx
    exact (hbody.cut (.block _) hs).imp_left (.again hcondition)
  | armBody hvalue hsame => exact (hvalue.cut (.expr _) hx).imp_left (.armBody · hsame)
  | nextArms hvalue hsame => exact (hvalue.cut (.expr _) hx).imp_left (.nextArms · hsame)
  | nextExprs he => exact (he.cut (.expr _) hx).imp_left .nextExprs
  | undecided hop hleft hopen => exact (hleft.cut (.expr _) hx).imp_left (.undecided hop · hopen)
  | right hop hleft => exact (hleft.cut (.expr _) hx).imp_left (.right hop)
  | callee harguments hcallee htarget =>
    exact (harguments.cut (.exprs _) hx).imp_left (.callee · hcallee htarget)
  | callFinished hcall => exact (hcall.cut (.call _ _) hx).imp_left .callFinished
  | exprFinished he => exact (he.cut (.expr _) hx).imp_left .exprFinished
  | stmtFinished hstmt => exact (hstmt.cut (.stmt _) hx).imp_left .stmtFinished

/-- **A step of the full run is a step of the run that is cut off**, as long as everything is
accepted. -/
theorem Step.uncut (h : p.Step .unbounded x y) (hy : sink.Accepts y.state.writes) :
    p.Step sink x y ∧ sink.Accepts x.state.writes := by
  cases h with
  | main hglobals hfunctions hmain =>
    rw [(declareFunctions_silent _ _).of_done hfunctions] at hy
    exact (hglobals.uncut (.globals _) hy).imp_left (.main · hfunctions hmain)
  | globalValue hvalue => exact ⟨.globalValue hvalue, hy⟩
  | globals | firstStmt | expression | initial | assigned | assignedOffset | ifCondition
  | switchCondition | whileCondition | result | armValue | defaultBody | firstExpr | inner | left
  | offset | arguments | elements => exact ⟨by constructor, hy⟩
  | nextGlobal hvalue hdeclare =>
    rw [(Eval.Silent.declare _ _ _).of_done hdeclare] at hy
    exact (hvalue.uncut (.option _) hy).imp_left (.nextGlobal · hdeclare)
  | body hf harguments =>
    rw [(declareArguments_silent _ _ _).of_done harguments] at hy
    exact ⟨.body hf harguments, hy⟩
  | nextStmts hstmt => exact (hstmt.uncut (.stmt _) hy).imp_left .nextStmts
  | assignedElement hoffset => exact (hoffset.uncut (.expr _) hy).imp_left .assignedElement
  | thenBody hcondition => exact (hcondition.uncut (.expr _) hy).imp_left .thenBody
  | elseBody hcondition => exact (hcondition.uncut (.expr _) hy).imp_left .elseBody
  | arms hcondition => exact (hcondition.uncut (.expr _) hy).imp_left .arms
  | whileBody hcondition => exact (hcondition.uncut (.expr _) hy).imp_left .whileBody
  | again hcondition hbody =>
    obtain ⟨hbody, hs⟩ := hbody.uncut (.block _) hy
    exact (hcondition.uncut (.expr _) hs).imp_left (.again · hbody)
  | armBody hvalue hsame => exact (hvalue.uncut (.expr _) hy).imp_left (.armBody · hsame)
  | nextArms hvalue hsame => exact (hvalue.uncut (.expr _) hy).imp_left (.nextArms · hsame)
  | nextExprs he => exact (he.uncut (.expr _) hy).imp_left .nextExprs
  | undecided hop hleft hopen => exact (hleft.uncut (.expr _) hy).imp_left (.undecided hop · hopen)
  | right hop hleft => exact (hleft.uncut (.expr _) hy).imp_left (.right hop)
  | callee harguments hcallee htarget =>
    exact (harguments.uncut (.exprs _) hy).imp_left (.callee · hcallee htarget)
  | callFinished hcall => exact (hcall.uncut (.call _ _) hy).imp_left .callFinished
  | exprFinished he => exact (he.uncut (.expr _) hy).imp_left .exprFinished
  | stmtFinished hstmt => exact (hstmt.uncut (.stmt _) hy).imp_left .stmtFinished

/-- **The moments of the run that is cut off are those of the full run** before the write that is
refused. -/
theorem reaches_iff_accepts : p.Reaches sink x ↔
    p.Reaches .unbounded x ∧ sink.Accepts x.state.writes := by
  constructor
  · intro h
    induction h with
    | refl => exact ⟨.refl, trivial⟩
    | tail _ hstep ih =>
      obtain ⟨hfull, haccepts⟩ := hstep.cut ih.2
      exact ⟨ih.1.tail hfull, haccepts⟩
  · rintro ⟨h, haccepts⟩
    induction h with
    | refl => exact .refl
    | tail _ hstep ih =>
      obtain ⟨hcut, hearlier⟩ := hstep.uncut haccepts
      exact (ih hearlier).tail hcut

/-! ### Runs -/

/-- A run up to the point where the output is flushed. -/
def work (host : Host) (p : Program) : Eval Value := do
  declareGlobals host p.globals
  declareFunctions 0 p.functions
  let main ← Eval.lift (← Eval.scope).mainIndex
  host.call main []

/-- A run is flushed when `main` has returned a value, and at no other time. -/
theorem start_eq (host : Host) (p : Program) :
    p.start host = p.work host >>= fun v => Eval.flush host.sink >>= fun _ => pure v := by
  simp only [start, work, bind_assoc]

/-- Up to the flush, a run is cut off where the sink refuses. -/
theorem CutsOff.work : p.CutsOff sink fun host => p.work host := by
  intro rounds
  refine Eval.Cuts.bind (CutsOff.globals p.globals rounds) fun _ _ => ?_
  refine Eval.Cuts.bind (.of_silent (declareFunctions_silent _ _)) fun _ _ => ?_
  refine Eval.Cuts.bind (.of_silent .scope) fun scope _ => ?_
  refine Eval.Cuts.bind (.of_silent (.lift _)) fun index _ => ?_
  exact CutsOff.call index [] rounds

end Program

/-- The result after the sink is asked to keep the output.  It is asked after a value only. -/
def RunResult.flushed (r : RunResult) (sink : Sink) : RunResult :=
  match r.verdict, sink.flushRefusal? with
  | .ok _, some reason => ⟨.error (.io reason), r.writes⟩
  | _, _ => r

namespace Program

variable {p : Program}

/-- What a run comes to, by what it comes to before the flush. -/
theorem ofOutcome?_start (p : Program) (host : Host) (s : State) :
    RunResult.ofOutcome? (p.start host s) =
      (RunResult.ofOutcome? (p.work host s)).map (·.flushed host.sink) := by
  rw [start_eq, Eval.bind_apply]
  cases p.work host s with
  | done v t =>
    simp only [Eval.flush, RunResult.ofOutcome?, Option.map_some, RunResult.flushed]
    cases host.sink.flushRefusal? <;> rfl
  | failed e writes => rfl
  | unfinished => rfl

/-- A run that ends has ended before the flush, with the writes that are accepted then. -/
theorem exists_work {rounds : Nat} {r : RunResult} (h : p.runWithin rounds .unbounded = some r) :
    (p.work (p.host .unbounded rounds) ⟨.initial, []⟩).writes? = some r.writes.reverse ∧
      RunResult.ofOutcome? (p.work (p.host .unbounded rounds) ⟨.initial, []⟩) = some r := by
  have hkept : ∀ r : RunResult, r.flushed .unbounded = r := by
    rintro ⟨verdict, writes⟩
    cases verdict <;> rfl
  rw [runWithin, ofOutcome?_start, Option.map_eq_some_iff] at h
  obtain ⟨r', hr', hflushed⟩ := h
  have hsame : r' = r := (hkept r').symm.trans hflushed
  subst hsame
  refine ⟨?_, hr'⟩
  cases hwork : p.work (p.host .unbounded rounds) ⟨.initial, []⟩ with
  | done v t =>
    rw [hwork] at hr'
    cases hr'
    rw [List.reverse_reverse]
    rfl
  | failed e writes =>
    rw [hwork] at hr'
    cases hr'
    rw [List.reverse_reverse]
    rfl
  | unfinished =>
    rw [hwork] at hr'
    cases hr'

/-- **A refused write cuts the output and nothing else.**  Take a run to a sink that takes
everything, and assume that it ends.  None of its writes is empty.  A sink that accepts all of them
gets all of them, and the result is the same, except that a value becomes an error if the sink
refuses to be flushed.  If the sink refuses a write, the result is this refusal, and exactly the
writes before it have been accepted.  So what is accepted is always a first part of the full output.

Whether or not the run ends, nothing is evaluated after the refusal: the moments of the run that is
cut off are those moments of the full run at which everything written is accepted. -/
theorem refusal_cuts (p : Program) (sink : Sink) :
    (∀ rounds r, p.runWithin rounds .unbounded = some r →
      (∀ text ∈ r.writes, text ≠ "") ∧
      (sink.Accepts r.writes.reverse → p.runWithin rounds sink = some (r.flushed sink)) ∧
      (∀ accepted text later reason, r.writes = accepted ++ text :: later →
        sink.Accepts accepted.reverse → sink.refusal? accepted.reverse = some reason →
          p.runWithin rounds sink = some ⟨.error (.io reason), accepted⟩) ∧
      ∃ r', p.runWithin rounds sink = some r' ∧ r'.writes <+: r.writes) ∧
    ∀ m, p.Reaches sink m ↔ p.Reaches .unbounded m ∧ sink.Accepts m.state.writes := by
  refine ⟨fun rounds r h => ?_, fun m => reaches_iff_accepts⟩
  obtain ⟨hwrites, hresult⟩ := exists_work h
  have hcut : Eval.Cuts sink (p.work (p.host .unbounded rounds)) (p.work (p.host sink rounds)) :=
    CutsOff.work rounds
  have hcuts := hcut.cuts ⟨.initial, []⟩ trivial
  obtain ⟨added, hadded, hnonempty⟩ := hcut.appends ⟨.initial, []⟩ _ hwrites
  have haccepted : sink.Accepts r.writes.reverse →
      p.runWithin rounds sink = some (r.flushed sink) := by
    intro haccepts
    rw [runWithin, ofOutcome?_start, hcuts.eq_of_accepts hwrites haccepts, hresult]
    rfl
  have hrefused : ∀ accepted text later reason, r.writes = accepted ++ text :: later →
      sink.Accepts accepted.reverse → sink.refusal? accepted.reverse = some reason →
        p.runWithin rounds sink = some ⟨.error (.io reason), accepted⟩ := by
    intro accepted text later reason hr haccepts hrefusal
    have hfirst : sink.firstRefusal? r.writes.reverse = some (accepted.reverse, reason) := by
      rw [hr, List.reverse_append, List.reverse_cons, List.append_assoc]
      exact Sink.firstRefusal?_of_refused haccepts hrefusal later.reverse
    rw [runWithin, ofOutcome?_start, hcuts.eq_of_refused hwrites hfirst]
    simp [RunResult.ofOutcome?, RunResult.flushed]
  refine ⟨fun text htext => ?_, haccepted, hrefused, ?_⟩
  · rw [List.append_nil] at hadded
    exact hnonempty text (hadded ▸ List.mem_reverse.2 htext)
  · cases hfirst : sink.firstRefusal? r.writes.reverse with
    | none =>
      refine ⟨_, haccepted (Sink.firstRefusal?_eq_none.1 hfirst), ?_⟩
      rw [RunResult.flushed]
      split <;> exact List.prefix_rfl
    | some refused =>
      obtain ⟨earlier, reason⟩ := refused
      obtain ⟨haccepts, hrefusal, later, text, hr⟩ := Sink.refused_of_firstRefusal? hfirst
      have hr' : r.writes = earlier.reverse ++ text :: later.reverse := by
        rw [← List.reverse_reverse r.writes, hr]
        simp
      refine ⟨_, hrefused earlier.reverse text later.reverse reason hr' ?_ ?_, ?_⟩
      · rwa [List.reverse_reverse]
      · rwa [List.reverse_reverse]
      · rw [hr']
        exact List.prefix_append _ _

/-- A program that prints a text twice to find an argument, and a third time as this argument. -/
def echoing : Program :=
  ⟨[],
    [Build.function "twice" [("s", "String")] (some "String")
      [Build.expression (Build.call "print" [Build.var "s"]),
        Build.expression (Build.call "print" [Build.var "s"]),
        Build.ret (Build.var "s")],
    Build.function "main" [] (some "Integer")
      [Build.expression (Build.call "print"
          [Build.call "twice" [Build.literal (.string "echo")]]),
        Build.ret (Build.literal (.integer 0))]]⟩

/-- A sink that is full after one line ends the program inside the argument; a sink that takes
everything but cannot be flushed gets the full output. -/
theorem refusal_cuts_echoing :
    echoing.runWithin 3 .unbounded =
        some ⟨.ok (.integer 0), ["echo", "\n", "echo", "\n", "echo", "\n"]⟩ ∧
      echoing.runWithin 3 (.lines 1) = some ⟨.error (.io "sink full"), ["echo", "\n"]⟩ ∧
      echoing.runWithin 3 Sink.unbounded.failingFlush =
        some ⟨.error (.io "flush failed"), ["echo", "\n", "echo", "\n", "echo", "\n"]⟩ := by
  have hfull : echoing.runWithin 3 .unbounded =
      some ⟨.ok (.integer 0), ["echo", "\n", "echo", "\n", "echo", "\n"]⟩ := by cbv
  have hlines := (refusal_cuts echoing (.lines 1)).1 3 _ hfull
  have hflush := (refusal_cuts echoing Sink.unbounded.failingFlush).1 3 _ hfull
  refine ⟨hfull, ?_, ?_⟩
  · exact hlines.2.2.1 ["echo", "\n"] "echo" ["\n", "echo", "\n"] "sink full" rfl
      ⟨⟨trivial, by decide⟩, by decide⟩ (by decide)
  · exact hflush.2.1 ⟨⟨⟨⟨⟨⟨trivial, rfl⟩, rfl⟩, rfl⟩, rfl⟩, rfl⟩, rfl⟩

end Program

end ImpTree
