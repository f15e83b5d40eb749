import ImpTree.Proofs.Run.Unrolled
import ImpTree.Proofs.Decimals.Arithmetic

/-!
# Switches

A switch evaluates its condition once and compares the values of its arms with the result, one after
the other, until one is equal.  So it is a chain of ifs over a variable that holds the result.  The
chain stands in frames that the switch does not have, and one of them has the variable: where the
name of the variable is not used, neither makes a difference.

* `Stmt.ifChain`, `Stmt.switchAsIfs` — the arms as a chain of ifs, and the whole switch.
* `Stmt.ifChain_pairs` — **the chain goes together with the arms**, under any frames that have the
  variable and nothing else that is used.
* `Program.Chooses`, `Program.Switches` — the steps of a switch, one after the other.
* `Program.switch_as_ifs` — **a switch is equivalent to its chain of ifs, and is its steps.**
-/

namespace ImpTree

variable {p : Program} {sink : Sink} {rounds : Nat}

/-! ## The chain of ifs -/

/-- The arms of a switch over the value of a variable, as a chain of ifs.  What stands after an arm
without a value is never reached.  The new nodes stand at `place`. -/
def Stmt.ifChain (name : String) (place : Span) : List Case → List Stmt
  | [] => []
  | .mk (some value) body _ :: rest =>
    [.ifElse (.binary .eq value (.var name none place none) place none) body
      (Stmt.ifChain name place rest) place]
  | .mk none body _ :: _ => [.ifElse (.literal (.boolean true) place none) body [] place]

/-- A switch as a block in which a variable holds the value of the condition, and a chain of ifs
over it. -/
def Stmt.switchAsIfs (name : String) (condition : Expr) (cases : List Case) (place : Span) : Stmt :=
  .ifElse (.literal (.boolean true) place none)
    (.declaration name none (some condition) none place :: Stmt.ifChain name place cases) [] place

/-- An if over the equality of an expression and a variable: the expression, the variable, and one
of the blocks. -/
theorem Stmt.execute_ifSame {host : Host} (value : Expr) (name : String)
    (body elseBody : List Stmt) (place : Span) :
    (Stmt.ifElse (.binary .eq value (.var name none place none) place none) body elseBody
        place).execute host =
      value.evaluate host >>= fun x => Eval.lookup name place >>= fun found =>
        if x.same found.value then Eval.inChild (Stmt.executeBlock host body)
        else Eval.inChild (Stmt.executeBlock host elseBody) := by
  rw [execute, Expr.evaluateCondition, Expr.evaluate, Expr.evaluate]
  simp only [bind_assoc, pure_bind, reduceCtorEq, or_self, if_false, BinaryOp.apply, Eval.lift_ok,
    Value.truth]

section Chain

variable {name : String} {fs : List Frame} {v : Value}

/-- The frames have a variable with the value of the condition, and nothing else that is used. -/
structure Frame.Holding (name : String) (v : Value) (fs : List Frame) : Prop where
  /-- The variable is found in the frames. -/
  found : fs.findSome? (fun f => f.var? name) = some ⟨runVariable name, v⟩
  /-- Where its name is not used, the frames are not noticed. -/
  idle : Frame.Idle (· ≠ name) fs

namespace Frame.Holding

/-- The frame of the variable. -/
theorem single (name : String) (v : Value) : Holding name v [⟨[⟨runVariable name, v⟩], []⟩] where
  found := by
    rw [List.findSome?_singleton, var?, List.find?_singleton]
    exact if_pos (beq_self_eq_true name)
  idle :=
    { callees := List.forall_mem_singleton.2 rfl
      vars := by
        intro other hother
        rw [List.forall_mem_singleton, var?, List.find?_singleton]
        exact if_neg fun h => hother (beq_iff_eq.1 h).symm }

/-- One more frame of a block. -/
theorem cons_empty (h : Holding name v fs) : Holding name v (.empty :: fs) :=
  ⟨h.found, h.idle.cons_empty⟩

/-- The variable is found in a scope with the frames inside. -/
theorem var? (h : Holding name v fs) {s s' : Scope} (hs : Scope.Inserted fs 0 s s') :
    s'.var? name = some ⟨runVariable name, v⟩ := by
  rw [hs.eq_within]
  simp only [Scope.var?, Scope.within, Scope.frames, List.append_assoc, List.findSome?_append,
    h.found, Option.some_or]

end Frame.Holding

/-- **The chain goes together with the arms**, by induction on the arms: it stands under frames that
hold the value of the condition, one more of them for each arm that does not fit. -/
theorem Stmt.ifChain_pairs (p : Program) (sink : Sink) (rounds : Nat) (place : Span) :
    ∀ (cases : List Case) {fs : List Frame}, Frame.Holding name v fs → name ∉ Stmt.casesUses cases →
      Eval.Pairs id (Scope.Inserted fs 0) (Stmt.executeCases (p.host sink rounds) v cases)
        (Stmt.executeBlock (p.host sink rounds) (Stmt.ifChain name place cases))
  | [], _, _, _ => .pure none
  | .mk none body span :: rest, fs, hholding, hname => by
    rw [casesUses, List.mem_append, List.mem_append, not_or, not_or] at hname
    rw [executeCases_default, ifChain, executeBlock_singleton, execute_always]
    exact Stmt.inChild_inserted p sink rounds body hholding.idle
      (fun _ hx => ne_of_mem_of_not_mem hx hname.2.1) 0
  | .mk (some e) body span :: rest, fs, hholding, hname => by
    rw [casesUses, List.mem_append, List.mem_append, not_or, not_or] at hname
    have hvalue := e.evaluate_inserted p sink rounds hholding.idle
      (fun _ hx => ne_of_mem_of_not_mem hx hname.1) 0
    have hbody := Stmt.inChild_inserted p sink rounds body hholding.idle
      (fun _ hx => ne_of_mem_of_not_mem hx hname.2.1) 0
    rw [executeCases_value, ifChain, executeBlock_singleton, execute_ifSame]
    refine hvalue.bind fun x _ s s' h writes => ?_
    rw [Eval.lookup_bind_of_var? (hholding.var? h)]
    by_cases hsame : x.same v = true
    · rw [if_pos hsame, if_pos hsame]
      exact hbody s s' h writes
    · rw [if_neg hsame, if_neg hsame, Eval.inChild_apply]
      have hrest := ifChain_pairs p sink rounds place rest hholding.cons_empty hname.2.2
      have hchild : Scope.Inserted (.empty :: fs) 0 s s'.child := by
        rw [h.eq_within]
        exact .here _ s
      exact (hrest s s'.child hchild writes).mapScope_right fun t t' ht => ht.leave_within

/-- A block that starts with a variable: its initial value, the variable, and the statements after
it. -/
theorem Stmt.executeBlock_declaration {host : Host} (name : String) (value : Expr) (span : Span)
    (rest : List Stmt) :
    Stmt.executeBlock host (.declaration name none (some value) none span :: rest) =
      value.evaluate host >>= fun v => Eval.declare (runVariable name) v span >>= fun _ =>
        Stmt.executeBlock host rest := by
  rw [executeBlock, execute]
  simp only [bind_assoc, pure_bind]
  rfl

/-- **A switch and its chain of ifs do the same**, in every state and within any number of
rounds. -/
theorem Stmt.execute_switchAsIfs {condition : Expr} {cases : List Case} {span : Span}
    (hname : name ∉ (Stmt.switch condition cases span).uses) (place : Span) :
    (Stmt.switchAsIfs name condition cases place).execute (p.host sink rounds) =
      (Stmt.switch condition cases span).execute (p.host sink rounds) := by
  rw [uses, List.mem_append, not_or] at hname
  have hempty : Frame.Idle (· ≠ name) [.empty] := .cons_empty .nil
  have hcondition := condition.evaluate_inserted p sink rounds hempty
    (fun _ hx => ne_of_mem_of_not_mem hx hname.1) 0
  funext s
  rw [switchAsIfs, execute_always, Eval.inChild_apply, execute, executeBlock_declaration]
  refine (Outcome.Pairs.mapScope_right (Q := fun t t' => t'.leave = t) ?_ fun _ _ h => h).eq
  refine (hcondition s.scope s.scope.child (.here _ _) s.writes).bind fun v t t' writes _ ht => ?_
  have hdeclare : t'.addVariable (runVariable name) v place =
      .ok (t.within [⟨[⟨runVariable name, v⟩], []⟩]) := by
    rw [ht.eq_within]
    exact Scope.addVariable_eq_ok.2 ⟨rfl, rfl⟩
  have hchain := ifChain_pairs p sink rounds place cases (Frame.Holding.single name v) hname.2
  rw [Eval.bind_of_done (Eval.declare_of_addVariable hdeclare)]
  exact (hchain t _ (.here _ t) writes).mono fun _ _ h => h.leave_within.eq_of_nil

end Chain

/-! ## Equal values -/

/-- Lists are equal if they are equal element by element. -/
theorem Value.sameAll_iff : ∀ as bs : List Value,
    Value.sameAll as bs = true ↔ List.Forall₂ (fun a b => a.same b = true) as bs
  | [], [] => by simp [sameAll]
  | [], _ :: _ => by simp [sameAll]
  | _ :: _, [] => by simp [sameAll]
  | a :: as, b :: bs => by rw [sameAll, Bool.and_eq_true, List.forall₂_cons, sameAll_iff as bs]

/-- What `==` says of two values. -/
theorem BinaryOp.apply_eq_iff {a b : Value} {span : Span} {holds : Bool} :
    BinaryOp.eq.apply a b span = .ok (.boolean holds) ↔ a.same b = holds := by
  simp [apply]

/-! ## The steps of a switch -/

/-- The arms of a switch are gone through to an outcome: their values are evaluated in order, as
long as none of them equals the value of the condition; then the body of that arm is executed, in a
frame of its own, and nothing after it. -/
inductive Program.Chooses (p : Program) (sink : Sink) (v : Value) :
    List Case → State → Outcome Flow → Prop where
  /-- There is no arm left. -/
  | nothing {s} : Chooses p sink v [] s (.done none s)
  /-- An arm without a value fits. -/
  | default {body span rest s o}
      (hbody : p.ComesTo sink (fun host => Eval.inChild (Stmt.executeBlock host body)) s o) :
      Chooses p sink v (.mk none body span :: rest) s o
  /-- The value of the first arm fails. -/
  | valueFails {value body span rest s e writes}
      (hvalue : p.ComesTo sink (fun host => value.evaluate host) s (.failed e writes)) :
      Chooses p sink v (.mk (some value) body span :: rest) s (.failed e writes)
  /-- The value of the first arm equals that of the condition. -/
  | fits {value body span rest x s s₁ o}
      (hvalue : p.ComesTo sink (fun host => value.evaluate host) s (.done x s₁))
      (hsame : BinaryOp.eq.apply x v span = .ok (.boolean true))
      (hbody : p.ComesTo sink (fun host => Eval.inChild (Stmt.executeBlock host body)) s₁ o) :
      Chooses p sink v (.mk (some value) body span :: rest) s o
  /-- It does not: the next arms. -/
  | skips {value body span rest x s s₁ o}
      (hvalue : p.ComesTo sink (fun host => value.evaluate host) s (.done x s₁))
      (hsame : BinaryOp.eq.apply x v span = .ok (.boolean false))
      (hrest : Chooses p sink v rest s₁ o) :
      Chooses p sink v (.mk (some value) body span :: rest) s o

/-- A switch goes through its steps to an outcome: its condition is evaluated once, and then one of
its arms is chosen. -/
inductive Program.Switches (p : Program) (sink : Sink) (condition : Expr) (cases : List Case) :
    State → Outcome Flow → Prop where
  /-- The condition fails. -/
  | conditionFails {s e writes}
      (hcondition : p.ComesTo sink (fun host => condition.evaluate host) s (.failed e writes)) :
      Switches p sink condition cases s (.failed e writes)
  /-- An arm is chosen. -/
  | chooses {v s s₁ o}
      (hcondition : p.ComesTo sink (fun host => condition.evaluate host) s (.done v s₁))
      (hcases : p.Chooses sink v cases s₁ o) : Switches p sink condition cases s o

section Steps

variable {s : State} {o : Outcome Flow} {v : Value} {condition : Expr} {cases : List Case}

/-- The arms of a switch come to what they come to by their steps, by induction on the arms. -/
theorem Program.comesTo_cases_iff : ∀ {cases : List Case} {s : State},
    p.ComesTo sink (fun host => Stmt.executeCases host v cases) s o ↔
      p.Chooses sink v cases s o := by
  intro cases
  induction cases with
  | nil =>
    intro s
    constructor
    · rintro ⟨-, n, rfl⟩
      exact .nothing
    · rintro ⟨⟩
      exact ⟨nofun, 0, rfl⟩
  | cons arm rest ih =>
    intro s
    obtain ⟨_ | value, body, span⟩ := arm
    · simp only [Stmt.executeCases_default]
      constructor
      · exact .default
      · rintro ⟨⟩
        assumption
    · simp only [Stmt.executeCases_value]
      rw [comesTo_bind (fun _ _ h => Expr.evaluate_approximates h value) ?grows]
      case grows =>
        intro x host host' h
        by_cases hsame : x.same v = true
        · simp only [if_pos hsame]
          exact (Stmt.executeBlock_approximates h body).inChild
        · simp only [if_neg hsame]
          exact Stmt.executeCases_approximates h v rest
      constructor
      · rintro (⟨e, writes, rfl, h⟩ | ⟨x, s₁, h, h'⟩)
        · exact .valueFails h
        · by_cases hsame : x.same v = true
          · simp only [if_pos hsame] at h'
            exact .fits h (BinaryOp.apply_eq_iff.2 hsame) h'
          · simp only [if_neg hsame] at h'
            exact .skips h (BinaryOp.apply_eq_iff.2 (Bool.not_eq_true _ ▸ hsame)) (ih.1 h')
      · intro h
        cases h with
        | valueFails hvalue => exact .inl ⟨_, _, rfl, hvalue⟩
        | fits hvalue hsame hbody =>
          refine .inr ⟨_, _, hvalue, ?_⟩
          simp only [if_pos (BinaryOp.apply_eq_iff.1 hsame)]
          exact hbody
        | skips hvalue hsame hrest =>
          refine .inr ⟨_, _, hvalue, ?_⟩
          simp only [BinaryOp.apply_eq_iff.1 hsame, Bool.false_eq_true, if_false]
          exact ih.2 hrest

/-- A switch comes to what it comes to by its steps. -/
theorem Program.comesTo_switch_iff (span : Span) :
    p.ComesTo sink (fun host => (Stmt.switch condition cases span).execute host) s o ↔
      p.Switches sink condition cases s o := by
  simp only [Stmt.execute]
  rw [comesTo_bind (fun _ _ h => Expr.evaluate_approximates h condition)
    fun v _ _ h => Stmt.executeCases_approximates h v cases]
  simp only [comesTo_cases_iff]
  constructor
  · rintro (⟨e, writes, rfl, h⟩ | ⟨v, s₁, h, h'⟩)
    · exact .conditionFails h
    · exact .chooses h h'
  · rintro (h | ⟨h, h'⟩)
    · exact .inl ⟨_, _, rfl, h⟩
    · exact .inr ⟨_, _, h, h'⟩

end Steps

/-- **A switch is equivalent to its chain of ifs, and is its steps.**  In every scope, whatever the
program is, and for every name that the switch does not use itself: the switch and the block in
which a variable of that name holds the value of the condition, followed by the chain of ifs over
it, come to the same outcomes.  What the switch comes to is what it comes to by evaluating its
condition once and the values of its arms in order, up to the first one that is equal to it as `==`
has it, and executing the body of that arm only.  And `==` compares decimals by the numbers that
they stand for, and lists element by element. -/
theorem Program.switch_as_ifs (p : Program) (scope : Scope) (condition : Expr) (cases : List Case)
    (span place : Span) (name : String)
    (hname : name ∉ (Stmt.switch condition cases span).uses) :
    p.Equivalent scope (.switch condition cases span)
        (Stmt.switchAsIfs name condition cases place) ∧
      (∀ sink writes o,
        p.ComesTo sink (fun host => (Stmt.switch condition cases span).execute host)
            ⟨scope, writes⟩ o ↔
          p.Switches sink condition cases ⟨scope, writes⟩ o) ∧
      (∀ (a b : Decimal) (place : Span),
        BinaryOp.eq.apply (.decimal a) (.decimal b) place = .ok (.boolean true) ↔
          a.size = b.size) ∧
      ∀ (as bs : List Value) (place : Span),
        BinaryOp.eq.apply (.list as) (.list bs) place = .ok (.boolean true) ↔
          List.Forall₂ (fun a b => BinaryOp.eq.apply a b place = .ok (.boolean true)) as bs := by
  refine ⟨fun sink writes o => ?_, fun sink writes o => comesTo_switch_iff span,
    fun a b place => ?_, fun as bs place => ?_⟩
  · simp only [ComesTo, Stmt.execute_switchAsIfs hname]
  · rw [BinaryOp.apply_eq_iff, Value.same, Decimal.same_iff]
  · simp only [BinaryOp.apply_eq_iff, Value.same, Value.sameAll_iff]

/-- The condition of a switch over the global that a call changes. -/
def Program.addingCondition : Expr := Build.call "add" [Build.literal (.integer 2)]

/-- The arms of the switch: the first one changes the global, too, and does not fit; the second one
fits, so that the third one is not tried. -/
def Program.addingCases : List Case :=
  [Build.case (Build.call "add" [Build.literal (.integer 1)]) [Build.ret (Build.var "n")],
    Build.case (Build.literal (.integer 3)) [Build.ret (Build.var "total")],
    Build.case (Build.call "add" [Build.literal (.integer 8)]) [],
    Build.defaultCase [Build.assignment (Build.var "n") (Build.literal (.integer 0))]]

/-- The switch that adds, and its chain of ifs, add three in all. -/
theorem Program.switch_as_ifs_adding :
    "chosen" ∉ (Stmt.switch addingCondition addingCases .nowhere).uses ∧
      adding.Equivalent (addingScope 1 [addingFrame])
        (.switch addingCondition addingCases .nowhere)
        (Stmt.switchAsIfs "chosen" addingCondition addingCases .nowhere) ∧
      adding.ComesTo .unbounded
        (fun host =>
          (Stmt.switchAsIfs "chosen" addingCondition addingCases .nowhere).execute host)
        ⟨addingScope 1 [addingFrame], []⟩
        (.done (some (.integer 4)) ⟨addingScope 4 [addingFrame], []⟩) := by
  have hname : "chosen" ∉ (Stmt.switch addingCondition addingCases .nowhere).uses := by decide
  have hsame := switch_as_ifs adding (addingScope 1 [addingFrame]) addingCondition addingCases
    .nowhere .nowhere "chosen" hname
  exact ⟨hname, hsame.1, (hsame.1 .unbounded [] _).1 ⟨nofun, 2, by cbv⟩⟩

end ImpTree
