import ImpTree.Proofs.Run.Congruence
import ImpTree.Proofs.Run.Isolation
import ImpTree.Proofs.Scope.Insertion

/-!
# Frames that make no difference

Frames that are put into the scope make no difference to what is done in it, if they have no
functions and none of the variables that are used: the result, or the error, and the output are the
same, and the scope afterwards is the same with the frames put into it.  What is used is what a
statement reads or assigns to itself; the functions that it calls do not see the frames.

* `Eval.Transparent`, `Eval.Transparent.congruence` — computations that notice no such frame, and
  that this goes through all ways of putting computations together.
* `Program.host_inserted` — **calls do not notice the frames.**
* `Expr.evaluate_inserted`, `Stmt.inChild_inserted` — **nor do expressions, nor blocks in a frame of
  their own.**
-/

namespace ImpTree

variable {α : Type} {names : String → Prop} {fs : List Frame} {n : Nat}

/-! ## Steps -/

/-- The computation does the same where frames are put under the innermost one, or under more of
them, if the frames have no functions and none of the names. -/
def Eval.Transparent (names : String → Prop) (m m' : Eval α) : Prop :=
  ∀ fs, Frame.Idle names fs → ∀ n, Eval.Pairs id (Scope.Inserted fs (n + 1)) m m'

/-- A computation in a frame of its own. -/
theorem Eval.Pairs.inChild_inserted {m m' : Eval α}
    (h : Eval.Pairs id (Scope.Inserted fs (n + 1)) m m') :
    Eval.Pairs id (Scope.Inserted fs n) (Eval.inChild m) (Eval.inChild m') :=
  h.inChild_of_related (fun _ _ h => h.child) fun _ _ h => h.leave

namespace Eval.Transparent

/-- A computation in a frame directly inside the root: there, no frame is put into the scope. -/
theorem inCall {m m' : Eval α} (h : Transparent names m m') :
    Transparent names (Eval.inCall m) (Eval.inCall m') := by
  intro fs hfs n
  refine (h [] .nil 0).inCall_of_related (fun s s' hs => ?_) fun s s' t t' hs ht => ?_
  · have henter : s'.global = s.global := by rw [Scope.global, Scope.global, hs.root]
    rw [henter]
    exact (Scope.Inserted.here [] s.global).child
  · rw [ht.root]
    exact hs.withRoot t.root

/-- Noticing no frame goes through all ways of putting computations together. -/
theorem congruence : Congruence names (Transparent names) where
  pure a fs hfs n := .pure a
  fail e fs hfs n s s' h writes := .failed_id e writes
  lookup name hname span fs hfs n s s' h writes := by
    simp only [lookup, bind_apply, scope_apply, Scope.findVariable, h.var? (hfs.vars name hname)]
    cases s.var? name with
    | none => exact .failed_id _ _
    | some found => exact .done h
  declare binding value span fs hfs n s s' h writes := by
    rw [declare, bind_of_done scope_apply, bind_of_done scope_apply, Scope.addVariable,
      Scope.addVariable, h.innermost]
    split
    · exact .failed_id _ _
    · have hafter := h.withVariable ⟨binding, value⟩
      rw [Scope.withVariable, Scope.withVariable, h.innermost] at hafter
      exact .done hafter
  assign name hname value fs hfs n s s' h writes := .done (h.assign (hfs.vars name hname) value)
  bind hm hf fs hfs n := (hm fs hfs n).bind fun a ha => hf a ha fs hfs n
  inChild h fs hfs n := (h fs hfs (n + 1)).inChild_inserted
  inCall := inCall

end Eval.Transparent

/-! ## Calls -/

/-- **Calls do not notice the frames**: the functions are found in the same frames, and a function
that is called does not see any but the root. -/
theorem Program.host_inserted (p : Program) (sink : Sink) (rounds : Nat)
    (hfs : Frame.Idle names fs) (n : Nat) :
    (p.host sink rounds).Pairs id (Scope.Inserted fs n) names (fun _ => True)
      (p.host sink rounds) where
  value name hname s s' h := congrArg _ (h.var? (hfs.vars name hname))
  call := by
    rintro ⟨name, arity⟩ - span values -
    refine Host.callNamed_pairs fun s s' h => ?_
    rw [h.callee? hfs.callees]
    cases s.callee? name values.length with
    | none => exact .none
    | some c =>
      refine .some fun s s' h writes => ?_
      cases c.target with
      | builtin function => exact Builtin.invoke_pairs sink values function s s' h writes
      | declared index =>
        have haround := p.call_around sink rounds index values s s' ⟨rfl, rfl, h.root.symm⟩ writes
        refine haround.mono ?_
        -- both scopes keep their inner frames, around the same root
        rintro ⟨_, root⟩ ⟨_, _⟩ ⟨rfl, rfl, rfl⟩
        exact h.withRoot root

/-! ## Expressions and blocks -/

section Host

variable (p : Program) (sink : Sink) (rounds : Nat)

/-- **An expression does not notice the frames.** -/
theorem Expr.evaluate_inserted (e : Expr) (hfs : Frame.Idle names fs)
    (hreads : ∀ name ∈ e.reads, names name) (n : Nat) :
    Eval.Pairs id (Scope.Inserted fs n) (e.evaluate (p.host sink rounds))
      (e.evaluate (p.host sink rounds)) := by
  have hpairs := Expr.evaluate_pairs (p.host_inserted sink rounds hfs n) e hreads
    fun _ _ => trivial
  have hself : e.mapSpans id = e := Expr.mapSpans_eq_self fun _ _ => rfl
  rwa [hself] at hpairs

/-- A condition does not notice the frames. -/
theorem Expr.evaluateCondition_inserted (condition : Expr) (hfs : Frame.Idle names fs)
    (hreads : ∀ name ∈ condition.reads, names name) (n : Nat) :
    Eval.Pairs id (Scope.Inserted fs n) (condition.evaluateCondition (p.host sink rounds))
      (condition.evaluateCondition (p.host sink rounds)) := by
  refine (condition.evaluate_inserted p sink rounds hfs hreads n).bind fun v _ s s' h writes => ?_
  cases v.truth condition.span with
  | ok b => exact .done h
  | error e => exact .failed_id e writes

/-- **A block in a frame of its own does not notice the frames.** -/
theorem Stmt.inChild_inserted (block : List Stmt) (hfs : Frame.Idle names fs)
    (huses : ∀ name ∈ Stmt.blockUses block, names name) (n : Nat) :
    Eval.Pairs id (Scope.Inserted fs n)
      (Eval.inChild (Stmt.executeBlock (p.host sink rounds) block))
      (Eval.inChild (Stmt.executeBlock (p.host sink rounds) block)) := by
  have hhost : (p.host sink rounds).Related (Eval.Transparent names) (fun _ => True) True
      (p.host sink rounds) :=
    { call := fun key _ span values hlength fs hfs n =>
        (p.host_inserted sink rounds hfs (n + 1)).call key trivial span values hlength
      loop := fun _ _ _ _ _ hcondition hbody =>
        Eval.Transparent.congruence.loop (fun _ _ _ => .unfinished) hcondition hbody rounds }
  have hblock := Stmt.executeBlock_related Eval.Transparent.congruence hhost block huses
    (fun _ _ => trivial) fun _ _ _ => trivial
  exact (hblock fs hfs n).inChild_inserted

end Host

end ImpTree
