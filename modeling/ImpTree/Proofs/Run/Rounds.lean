import ImpTree.Proofs.Run.Congruence

/-!
# More rounds

A run that comes to an end within a number of rounds comes to the same end within more rounds.  Said
of computations: one approximates another if the other comes to the same end wherever the first
comes to one.

* `Eval.Approximates`, `Eval.Approximates.congruence` — the relation, and that it goes through all
  ways of putting computations together.
* `Host.Approximates` — hosts whose calls grow, and that evaluation and execution grow with them.
* `Program.host_approximates` — **more rounds keep every end** of a computation.
-/

namespace ImpTree

/-! ## Approximation -/

/-- Wherever the first computation comes to an end, the second one comes to the same end. -/
def Eval.Approximates {α : Type} (m m' : Eval α) : Prop := ∀ s, m s = .unfinished ∨ m' s = m s

namespace Eval.Approximates

variable {α β : Type} {m m' : Eval α} {f f' : α → Eval β}

theorem refl (m : Eval α) : m.Approximates m := fun _ => .inr rfl

theorem unfinished (m : Eval α) : Eval.unfinished.Approximates m := fun _ => .inl rfl

/-- A result that comes out comes out of the better computation. -/
theorem of_done {s s' : State} {a : α} (h : m.Approximates m') (hm : m s = .done a s') :
    m' s = .done a s' := by
  rcases h s with hs | hs
  · rw [hm] at hs
    cases hs
  · exact hs.trans hm

/-- An error that comes out comes out of the better computation. -/
theorem of_failed {s : State} {e : Error} {writes : List String} (h : m.Approximates m')
    (hm : m s = .failed e writes) : m' s = .failed e writes := by
  rcases h s with hs | hs
  · rw [hm] at hs
    cases hs
  · exact hs.trans hm

/-- One computation after the other; the second one for the results of the first one only. -/
theorem bind (hm : m.Approximates m')
    (hf : ∀ a, (∃ s t, m s = .done a t) → (f a).Approximates (f' a)) :
    (m >>= f).Approximates (m' >>= f') := by
  intro s
  rw [bind_apply, bind_apply]
  rcases hm s with hs | hs
  · rw [hs]
    exact .inl rfl
  · rw [hs]
    cases hdone : m s with
    | done a s₁ => exact hf a ⟨s, s₁, hdone⟩ s₁
    | failed e writes => exact .inr rfl
    | unfinished => exact .inl rfl

/-- A computation in a frame of its own. -/
theorem inChild (h : m.Approximates m') : (Eval.inChild m).Approximates (Eval.inChild m') := by
  intro s
  rw [Eval.inChild, Eval.inChild]
  rcases h { s with scope := s.scope.child } with hs | hs
  · rw [hs]
    exact .inl rfl
  · rw [hs]
    exact .inr rfl

/-- A computation in a frame directly inside the root. -/
theorem inCall (h : m.Approximates m') : (Eval.inCall m).Approximates (Eval.inCall m') := by
  intro s
  rw [Eval.inCall, Eval.inCall]
  rcases h { s with scope := s.scope.global.child } with hs | hs
  · rw [hs]
    exact .inl rfl
  · rw [hs]
    exact .inr rfl

/-- A loop, by induction on its rounds: each of them is the condition, the body and the rest. -/
theorem loop {condition condition' : Eval Bool} {body body' : Eval (Option α)}
    (hcondition : condition.Approximates condition') (hbody : body.Approximates body') :
    ∀ {rounds rounds' : Nat}, rounds ≤ rounds' →
      Eval.Approximates (Eval.loop condition body rounds) (Eval.loop condition' body' rounds') := by
  intro rounds
  induction rounds with
  | zero => exact fun _ => unfinished _
  | succ rounds ih =>
    intro rounds' hle
    cases rounds' with
    | zero => omega
    | succ rounds' =>
      rw [loop_succ, loop_succ]
      refine hcondition.bind fun holds _ => ?_
      cases holds with
      | false => exact refl _
      | true =>
        refine hbody.bind fun flow _ => ?_
        cases flow with
        | none => exact ih (Nat.le_of_succ_le_succ hle)
        | some a => exact refl _

/-- Approximation respects how computations are put together. -/
theorem congruence : Congruence (fun _ => True) Approximates where
  pure _ := refl _
  fail _ := refl _
  lookup _ _ _ := refl _
  declare _ _ _ := refl _
  assign _ _ _ := refl _
  bind hm hf := hm.bind hf
  inChild := inChild
  inCall := inCall

end Eval.Approximates

/-! ## Hosts -/

/-- The second host has the same sink and better calls, and gives loops at least as many rounds. -/
structure Host.Approximates (host host' : Host) : Prop where
  /-- The sinks are the same. -/
  sink : host'.sink = host.sink
  /-- Loops are given as many rounds or more. -/
  rounds : host.rounds ≤ host'.rounds
  /-- Calls come to an end where they did before. -/
  call : ∀ index arguments, (host.call index arguments).Approximates (host'.call index arguments)

section Hosts

variable {host host' : Host}

/-- Calls by name and loops grow with the host. -/
theorem Host.Approximates.related (h : host.Approximates host') :
    host.Related Eval.Approximates (fun _ => True) True host' := by
  refine .of_calls Eval.Approximates.congruence (.refl _) (fun text _ => ?_) h.call
    fun hcondition hbody => hcondition.loop hbody h.rounds
  rw [h.sink]
  exact .refl _

/-- Evaluation grows with the host. -/
theorem Expr.evaluate_approximates (h : host.Approximates host') (e : Expr) :
    (e.evaluate host).Approximates (e.evaluate host') :=
  Expr.evaluate_related Eval.Approximates.congruence h.related e (fun _ _ => trivial)
    fun _ _ => trivial

/-- So does evaluation of several expressions. -/
theorem Expr.evaluateAll_approximates (h : host.Approximates host') (es : List Expr) :
    (Expr.evaluateAll host es).Approximates (Expr.evaluateAll host' es) :=
  Expr.evaluateAll_related Eval.Approximates.congruence h.related es (fun _ _ => trivial)
    fun _ _ => trivial

/-- So does evaluation of a condition. -/
theorem Expr.evaluateCondition_approximates (h : host.Approximates host') (condition : Expr) :
    (condition.evaluateCondition host).Approximates (condition.evaluateCondition host') :=
  Expr.evaluateCondition_related Eval.Approximates.congruence h.related condition
    (fun _ _ => trivial) fun _ _ => trivial

/-- So does evaluation of an initial value. -/
theorem Expr.evaluateOption_approximates (h : host.Approximates host') (value : Option Expr) :
    (Expr.evaluateOption host value).Approximates (Expr.evaluateOption host' value) :=
  Expr.evaluateOption_related Eval.Approximates.congruence h.related value
    (fun _ _ => trivial) fun _ _ => trivial

/-- Execution grows with the host. -/
theorem Stmt.execute_approximates (h : host.Approximates host') (stmt : Stmt) :
    (stmt.execute host).Approximates (stmt.execute host') :=
  Stmt.execute_related Eval.Approximates.congruence h.related stmt (fun _ _ => trivial)
    (fun _ _ => trivial) fun _ _ _ => trivial

/-- So does execution of a block. -/
theorem Stmt.executeBlock_approximates (h : host.Approximates host') (block : List Stmt) :
    (Stmt.executeBlock host block).Approximates (Stmt.executeBlock host' block) :=
  Stmt.executeBlock_related Eval.Approximates.congruence h.related block (fun _ _ => trivial)
    (fun _ _ => trivial) fun _ _ _ => trivial

/-- So does execution of the arms of a switch. -/
theorem Stmt.executeCases_approximates (h : host.Approximates host') (v : Value)
    (arms : List Case) :
    (Stmt.executeCases host v arms).Approximates (Stmt.executeCases host' v arms) :=
  Stmt.executeCases_related Eval.Approximates.congruence h.related v arms (fun _ _ => trivial)
    (fun _ _ => trivial) fun _ _ _ => trivial

/-- So does the application of a function. -/
theorem FunctionDef.apply_approximates (h : host.Approximates host') (f : FunctionDef)
    (arguments : List Value) : (f.apply host arguments).Approximates (f.apply host' arguments) :=
  FunctionDef.apply_related Eval.Approximates.congruence h.related f arguments
    (fun _ _ => trivial) (fun _ _ => trivial) fun _ _ _ => trivial

/-- So do the declarations of globals. -/
theorem declareGlobals_approximates (h : host.Approximates host') (globals : List Global) :
    (declareGlobals host globals).Approximates (declareGlobals host' globals) :=
  declareGlobals_related Eval.Approximates.congruence h.related globals
    (fun _ _ _ _ => trivial) fun _ _ _ _ => trivial

/-- So do whole runs. -/
theorem Program.start_approximates (h : host.Approximates host') (p : Program) :
    (p.start host).Approximates (p.start host') := by
  refine (declareGlobals_approximates h p.globals).bind fun _ _ =>
    (Eval.Approximates.refl _).bind fun _ _ => (Eval.Approximates.refl _).bind fun _ _ =>
      (Eval.Approximates.refl _).bind fun index _ => (h.call index []).bind fun _ _ => ?_
  rw [h.sink]
  exact .refl _

end Hosts

/-! ## Runs -/

/-- More depth keeps every end of a call. -/
theorem callWithin_approximates (sink : Sink) (functions : List FunctionDef) :
    ∀ {depth depth' : Nat}, depth ≤ depth' → ∀ index arguments,
      (callWithin sink functions depth index arguments).Approximates
        (callWithin sink functions depth' index arguments) := by
  intro depth
  induction depth with
  | zero => exact fun _ _ _ => .unfinished _
  | succ depth ih =>
    intro depth' hle index arguments
    cases depth' with
    | zero => omega
    | succ depth' =>
      have hle' : depth ≤ depth' := Nat.le_of_succ_le_succ hle
      have hhost : Host.Approximates ⟨sink, depth, callWithin sink functions depth⟩
          ⟨sink, depth', callWithin sink functions depth'⟩ := ⟨rfl, hle', ih hle'⟩
      rw [callWithin, callWithin]
      cases functions[index]? with
      | none => exact .refl _
      | some f => exact f.apply_approximates hhost arguments

/-- **More rounds keep every end.**  What a program evaluates against grows with the rounds. -/
theorem Program.host_approximates (p : Program) (sink : Sink) {n n' : Nat} (hle : n ≤ n') :
    (p.host sink n).Approximates (p.host sink n') :=
  ⟨rfl, hle, callWithin_approximates sink p.functions hle⟩

end ImpTree
