import ImpTree.Proofs.Run.Equivalence
import ImpTree.Proofs.Run.Inserted

/-!
# Loops

A loop is the choice whether to go through a first round: its condition decides, the body is
executed in a frame of its own, and then the loop is executed again.  Written out as a statement,
the rounds stand in a frame more than those of the loop, and this frame makes no difference.

* `Stmt.executeRounds` — a number of rounds of a loop.
* `Stmt.unrolled`, `Stmt.execute_unrolled` — the loop with its first round written out, and that it
  is one more round of the same loop.
* `Program.Loops` — the rounds of a loop, one after the other.
* `Program.loop_unrolls` — **the unrolled loop is equivalent to the loop, and a loop is its
  rounds.**
-/

namespace ImpTree

open Filter (atTop eventually_ge_atTop)

variable {p : Program} {sink : Sink} {condition : Expr} {body : List Stmt} {rounds : Nat}

section Blocks

variable {host : Host}

/-! ## Blocks -/

/-- A block of one statement is the statement. -/
theorem Stmt.executeBlock_singleton (stmt : Stmt) :
    Stmt.executeBlock host [stmt] = stmt.execute host := by
  rw [executeBlock]
  refine Eq.trans (congrArg _ ?_) (bind_pure (stmt.execute host))
  funext flow
  cases flow <;> rfl

/-- What always holds is a block in a frame of its own. -/
theorem Stmt.execute_always (body elseBody : List Stmt) (place span : Span) (ty : Slot Ty) :
    (Stmt.ifElse (.literal (.boolean true) place ty) body elseBody span).execute host =
      Eval.inChild (Stmt.executeBlock host body) := by
  rw [execute, Expr.evaluateCondition, Expr.evaluate]
  rfl

/-! ## Numbers of rounds -/

/-- At most `k` rounds of a loop. -/
def Stmt.executeRounds (host : Host) (condition : Expr) (body : List Stmt) (k : Nat) : Eval Flow :=
  Eval.loop (condition.evaluateCondition host) (Eval.inChild (Stmt.executeBlock host body)) k

/-- A loop goes through as many rounds as the host gives it. -/
theorem Stmt.execute_whileLoop (span : Span) :
    (Stmt.whileLoop condition body span).execute host =
      Stmt.executeRounds host condition body host.rounds := by
  rw [execute, executeRounds]

/-- More rounds keep every end. -/
theorem Program.executeRounds_approximates (p : Program) (sink : Sink) (condition : Expr)
    (body : List Stmt) {n n' k k' : Nat} (hn : n ≤ n') (hk : k ≤ k') :
    (Stmt.executeRounds (p.host sink n) condition body k).Approximates
      (Stmt.executeRounds (p.host sink n') condition body k') :=
  (Expr.evaluateCondition_approximates (p.host_approximates sink hn) condition).loop
    (Stmt.executeBlock_approximates (p.host_approximates sink hn) body).inChild hk

end Blocks

/-! ## One more round -/

/-- The loop with its first round written out: if the condition holds, the body in a frame of its
own, and the loop.  The new statements stand at `place`. -/
def Stmt.unrolled (condition : Expr) (body : List Stmt) (span place : Span) : Stmt :=
  .ifElse condition
    [.ifElse (.literal (.boolean true) place none) body [] place, .whileLoop condition body span]
    [] place

/-- The body and the loop after it, in the frame of the unrolled loop, do what they do without
it. -/
theorem Stmt.inChild_unrolled (condition : Expr) (body : List Stmt) (span place : Span) :
    Eval.inChild (Stmt.executeBlock (p.host sink rounds)
        [.ifElse (.literal (.boolean true) place none) body [] place,
          .whileLoop condition body span]) =
      (Eval.inChild (Stmt.executeBlock (p.host sink rounds) body) >>= fun flow =>
        match flow with
        | none => Stmt.executeRounds (p.host sink rounds) condition body rounds
        | some v => pure (some v)) := by
  have hidle : Frame.Idle (fun _ => True) [.empty] := .cons_empty .nil
  have hbody := Stmt.inChild_inserted p sink rounds body hidle (fun _ _ => trivial) 0
  have hcondition := condition.evaluateCondition_inserted p sink rounds hidle
    (fun _ _ => trivial) 0
  funext s
  rw [Eval.inChild_apply, executeBlock, execute_always]
  refine (Outcome.Pairs.mapScope_right (Q := Scope.Inserted [.empty] 0) ?_
    fun t t' ht => ht.leave_within.eq_of_nil).eq
  refine (hbody _ _ (.here _ s.scope) s.writes).bind fun flow t t' writes _ ht => ?_
  cases flow with
  | some v => exact .done ht
  | none =>
    rw [executeBlock_singleton, execute_whileLoop]
    exact hcondition.loop hbody _ t t' ht writes

/-- **The unrolled loop is one more round of the loop.** -/
theorem Stmt.execute_unrolled (condition : Expr) (body : List Stmt) (span place : Span) :
    (Stmt.unrolled condition body span place).execute (p.host sink rounds) =
      Stmt.executeRounds (p.host sink rounds) condition body (rounds + 1) := by
  rw [unrolled, execute, executeRounds, Eval.loop_succ, inChild_unrolled]
  congr 1
  funext holds
  cases holds with
  | true =>
    rw [if_pos rfl, if_pos rfl]
    congr 1
    funext flow
    cases flow <;> rfl
  | false => rfl

/-! ## The rounds of a loop -/

/-- A state after a block, without the frame of the block. -/
def State.leave (s : State) : State := { s with scope := s.scope.leave }

/-- A loop goes through its rounds to an outcome.  In each round the condition is evaluated once, in
the scope around the loop, and then the body is executed in a new frame inside that scope, which is
left again. -/
inductive Program.Loops (p : Program) (sink : Sink) (condition : Expr) (body : List Stmt) :
    State → Outcome Flow → Prop where
  /-- The condition fails. -/
  | conditionFails {s e writes}
      (hcondition : p.ComesTo sink (fun host => condition.evaluateCondition host) s
        (.failed e writes)) : Loops p sink condition body s (.failed e writes)
  /-- The condition does not hold: what is after the loop follows. -/
  | ends {s s₁}
      (hcondition : p.ComesTo sink (fun host => condition.evaluateCondition host) s
        (.done false s₁)) : Loops p sink condition body s (.done none s₁)
  /-- The body fails. -/
  | bodyFails {s s₁ e writes}
      (hcondition : p.ComesTo sink (fun host => condition.evaluateCondition host) s
        (.done true s₁))
      (hbody : p.ComesTo sink (fun host => Stmt.executeBlock host body) s₁.enter
        (.failed e writes)) : Loops p sink condition body s (.failed e writes)
  /-- The body ends the function, and so does the loop. -/
  | returns {s s₁ s₂ v}
      (hcondition : p.ComesTo sink (fun host => condition.evaluateCondition host) s
        (.done true s₁))
      (hbody : p.ComesTo sink (fun host => Stmt.executeBlock host body) s₁.enter
        (.done (some v) s₂)) : Loops p sink condition body s (.done (some v) s₂.leave)
  /-- The next round. -/
  | again {s s₁ s₂ o}
      (hcondition : p.ComesTo sink (fun host => condition.evaluateCondition host) s
        (.done true s₁))
      (hbody : p.ComesTo sink (fun host => Stmt.executeBlock host body) s₁.enter (.done none s₂))
      (hrest : Loops p sink condition body s₂.leave o) : Loops p sink condition body s o

section Rounds

variable {s : State} {o : Outcome Flow}

theorem Eval.inChild_enter {α : Type} (m : Eval α) (s : State) :
    Eval.inChild m s = (m s.enter).mapScope Scope.leave :=
  inChild_apply m s

/-- What a loop comes to within a number of rounds it comes to by going through them, by induction
on the number. -/
theorem Program.loops_of_executeRounds : ∀ (k : Nat) (s : State),
    Stmt.executeRounds (p.host sink rounds) condition body k s ≠ .unfinished →
      p.Loops sink condition body s
        (Stmt.executeRounds (p.host sink rounds) condition body k s) := by
  intro k
  induction k with
  | zero => exact fun s ho => absurd rfl ho
  | succ k ih =>
    intro s
    rw [Stmt.executeRounds, Eval.loop]
    cases hcondition : condition.evaluateCondition (p.host sink rounds) s with
    | unfinished => exact fun ho => absurd rfl ho
    | failed e writes => exact fun _ => .conditionFails (.of_failed hcondition)
    | done holds s₁ =>
      have hc : p.ComesTo sink (fun host => condition.evaluateCondition host) s (.done holds s₁) :=
        .of_done hcondition
      cases holds with
      | false => exact fun _ => .ends hc
      | true =>
        simp only [Eval.inChild_enter]
        cases hbody : Stmt.executeBlock (p.host sink rounds) body s₁.enter with
        | unfinished => exact fun ho => absurd rfl ho
        | failed e writes => exact fun _ => .bodyFails hc (.of_failed hbody)
        | done flow s₂ =>
          cases flow with
          | none => exact fun ho => .again hc (.of_done hbody) (ih s₂.leave ho)
          | some v => exact fun _ => .returns hc (.of_done hbody)

/-- Rounds are gone through to an end. -/
theorem Program.Loops.ended (h : p.Loops sink condition body s o) : o ≠ .unfinished := by
  induction h with
  | again _ _ _ ih => exact ih
  | _ => simp

/-- What a loop comes to by its rounds it comes to within as many of them, if the computations in
them are given enough rounds of their own. -/
theorem Program.Loops.eventually (h : p.Loops sink condition body s o) :
    ∃ k : Nat, ∀ᶠ rounds in atTop,
      Stmt.executeRounds (p.host sink rounds) condition body k s = o := by
  have hcondition : ∀ {s o}, p.ComesTo sink (fun host => condition.evaluateCondition host) s o →
      ∀ᶠ rounds in atTop, condition.evaluateCondition (p.host sink rounds) s = o :=
    fun h => h.eventually fun _ _ hhost => Expr.evaluateCondition_approximates hhost condition
  have hbody : ∀ {s o}, p.ComesTo sink (fun host => Stmt.executeBlock host body) s.enter o →
      ∀ᶠ rounds in atTop, Eval.inChild (Stmt.executeBlock (p.host sink rounds) body) s =
        o.mapScope Scope.leave := by
    intro s o h
    have hblock := h.eventually fun _ _ hhost => Stmt.executeBlock_approximates hhost body
    filter_upwards [hblock] with n hn
    rw [Eval.inChild_enter, hn]
  induction h with
  | conditionFails hc =>
    refine ⟨1, ?_⟩
    filter_upwards [hcondition hc] with n hn
    exact Eval.loop_of_condition_failed hn
  | ends hc =>
    refine ⟨1, ?_⟩
    filter_upwards [hcondition hc] with n hn
    rw [Stmt.executeRounds, Eval.loop, hn]
  | bodyFails hc hb =>
    refine ⟨1, ?_⟩
    filter_upwards [hcondition hc, hbody hb] with n hn hn'
    exact Eval.loop_of_body_failed hn hn'
  | returns hc hb =>
    refine ⟨1, ?_⟩
    filter_upwards [hcondition hc, hbody hb] with n hn hn'
    simp only [Stmt.executeRounds, Eval.loop, hn, hn']
    rfl
  | again hc hb _ ih =>
    obtain ⟨k, hk⟩ := ih
    refine ⟨k + 1, ?_⟩
    filter_upwards [hcondition hc, hbody hb, hk] with n hn hn' hrest
    rw [Stmt.executeRounds, Eval.loop_of_round hn hn']
    exact hrest

/-- A loop comes to what it comes to by its rounds. -/
theorem Program.comesTo_loop_iff (span : Span) :
    p.ComesTo sink (fun host => (Stmt.whileLoop condition body span).execute host) s o ↔
      p.Loops sink condition body s o := by
  simp only [Stmt.execute_whileLoop]
  constructor
  · rintro ⟨ho, rounds, rfl⟩
    exact loops_of_executeRounds rounds s ho
  · intro h
    obtain ⟨k, hk⟩ := h.eventually
    refine .of_eventually h.ended ?_
    -- from `k` on, the rounds that the host gives are enough
    filter_upwards [hk, eventually_ge_atTop k] with n hn hle
    exact (p.executeRounds_approximates sink condition body le_rfl hle).of_ended hn h.ended

/-- **The unrolled loop is equivalent to the loop, and a loop is its rounds.**  In every scope,
whatever the program is: the loop and the loop with its first round written out come to the same
outcomes; and what the loop comes to is what it comes to by evaluating its condition once in every
round, in the scope around it, and executing its body in a new frame in every round, until the
condition does not hold, the body ends the function, or one of them fails. -/
theorem Program.loop_unrolls (p : Program) (scope : Scope) (condition : Expr) (body : List Stmt)
    (span place : Span) :
    p.Equivalent scope (.whileLoop condition body span)
        (Stmt.unrolled condition body span place) ∧
      ∀ sink writes o,
        p.ComesTo sink (fun host => (Stmt.whileLoop condition body span).execute host)
            ⟨scope, writes⟩ o ↔
          p.Loops sink condition body ⟨scope, writes⟩ o := by
  refine ⟨fun sink writes o => ?_, fun sink writes o => comesTo_loop_iff span⟩
  simp only [ComesTo, Stmt.execute_whileLoop, Stmt.execute_unrolled]
  refine and_congr_right fun ho => ⟨?_, ?_⟩
  · rintro ⟨n, hn⟩
    have hmore := p.executeRounds_approximates sink condition body (le_refl n) (Nat.le_succ n)
    exact ⟨n, hmore.of_ended hn ho⟩
  · rintro ⟨n, hn⟩
    have hmore := p.executeRounds_approximates sink condition body (Nat.le_succ n) (le_refl (n + 1))
    exact ⟨n + 1, hmore.of_ended hn ho⟩

end Rounds

end ImpTree
