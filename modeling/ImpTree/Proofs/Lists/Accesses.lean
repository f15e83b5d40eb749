import ImpTree.Proofs.Lists.Values
import ImpTree.Proofs.Run.Equivalence

/-!
# Where indices are out of bounds

Elements of lists are accessed at two places: an expression reads one, and an assignment writes one.
A run that fails with an index out of bounds has come to such an access, whatever the program is,
checked or not, and the error tells of that access: of the index, of the list as it then is, and of
the place where the index stands.

* `Program.Accesses` — a task accesses a list at an integer.
* `Program.Exceeds` — an access outside the list, with its error.
* `Program.Exceeds.raises` — the access fails with that error.
* `Program.Blames`, `Program.Traced` — an error, and an outcome, of bounds that goes back to an
  access.
* `Expr.evaluate_traced`, `Stmt.execute_traced` — **expressions and statements**, if calls are.
* `Program.calls_traced`, `Program.start_traced` — **calls and whole runs**.
* `Program.exists_exceeds` — **where the error of a run comes from**.
-/

namespace ImpTree

/-! ## Accesses -/

section Accesses

variable (p : Program) (sink : Sink)

/-- The task, whose parts all end, accesses the list at the integer, which is the index at the
place. -/
inductive Program.Accesses : Task → State → List Value → Int → Span → Prop where
  /-- An element is read. -/
  | read {name offset binding span ty items i found s s₁}
      (hoffset : p.Ends sink (fun host => offset.evaluate host) s (.integer i) s₁)
      (hfound : s₁.scope.var? name = some found) (hlist : found.value = .list items) :
      Accesses (.expr (.element name offset binding span ty)) s items i span
  /-- An element gets a new value. -/
  | write {name offset binding place ty value span items i v found s s₁ s₂}
      (hoffset : p.Ends sink (fun host => offset.evaluate host) s (.integer i) s₁)
      (hvalue : p.Ends sink (fun host => value.evaluate host) s₁ v s₂)
      (hfound : s₂.scope.var? name = some found) (hmutable : found.binding.isMutable = true)
      (hlist : found.value = .list items) :
      Accesses (.stmt (.assignment (.element name offset binding place ty) value span)) s items i
        place

/-- The task accesses a list at an integer that is none of its positions, and the error tells so. -/
inductive Program.Exceeds : Task → State → Error → Prop where
  | intro {task s items i place} (haccess : p.Accesses sink task s items i place)
      (houtside : Value.Outside items i) :
      Exceeds task s (.indexOutOfBounds (Integer.text i) items.length place)

end Accesses

section Traces

variable {p : Program} {sink : Sink} {n : Nat} {α β : Type} {task task' : Task} {s s' s₀ s₁ : State}
  {e : Error}

/-- **An access outside the list fails** with the error that tells so. -/
theorem Program.Exceeds.raises (h : p.Exceeds sink task s e) :
    ∃ writes, task.Raises p sink s e writes := by
  cases h with
  | @intro items i place haccess houtside =>
    cases haccess with
    | @read _ _ _ _ _ _ _ found _ s₁ hoffset hfound hlist =>
      have herror : found.value.elementAt (.integer i) place =
          .error (.indexOutOfBounds (Integer.text i) items.length place) := by
        rw [hlist, Value.elementAt_list, if_neg houtside.not_inside]
      refine ⟨s₁.writes, ?_⟩
      filter_upwards [hoffset.evaluates] with n ho
      rw [Expr.evaluate, Eval.bind_of_done ho, Eval.bind_of_done (Eval.lookup_of_var? hfound),
        herror]
      rfl
    | @write _ _ _ _ _ _ _ _ _ v found _ _ s₂ hoffset hvalue hfound hmutable hlist =>
      have herror : found.value.withElementAt (.integer i) v place =
          .error (.indexOutOfBounds (Integer.text i) items.length place) := by
        rw [hlist, Value.withElementAt_list, if_neg houtside.not_inside]
      refine ⟨s₂.writes, ?_⟩
      filter_upwards [hoffset.evaluates, hvalue.evaluates] with n ho hv
      rw [Stmt.execute, Eval.bind_of_done ho, Eval.bind_of_done hv,
        Eval.bind_of_failed (assignTo_element_failed hfound hmutable herror)]

/-! ## Outcomes that go back to an access -/

/-- The error is not one of bounds, or the task leads to the access that it tells of. -/
def Program.Blames (p : Program) (sink : Sink) (task : Task) (s : State) (e : Error) : Prop :=
  e.InBounds ∨ p.LeadsTo sink task s fun task' s' => p.Exceeds sink task' s' e

/-- What goes back to an access goes back over a step. -/
theorem Program.Blames.of_step
    (hstep : ∀ known waiting, ∃ known' waiting',
      p.Step sink ⟨task, s, known, waiting⟩ ⟨task', s', known', waiting'⟩)
    (h : p.Blames sink task' s' e) : p.Blames sink task s e :=
  h.imp_right fun hleads => hleads.of_step hstep

/-- If the outcome is an error of bounds, the task leads to the access that it tells of. -/
def Program.Traced (p : Program) (sink : Sink) (task : Task) (s : State) (o : Outcome α) : Prop :=
  o.Meets (fun _ _ => True) (p.Blames sink task s)

namespace Program.Traced

variable {o : Outcome α} {m : Eval α} {f : α → Eval β} {x : Except Error α}

theorem within (h : p.Traced sink task' s' o) (task : Task) (s : State)
    (hstep : ∀ known waiting, ∃ known' waiting',
      p.Step sink ⟨task, s, known, waiting⟩ ⟨task', s', known', waiting'⟩) :
    p.Traced sink task s o :=
  h.mono (fun _ _ _ h => h) fun _ he => he.of_step hstep

theorem bind (hm : p.Traced sink task s (m s₀))
    (hf : ∀ a s₁, m s₀ = .done a s₁ → p.Traced sink task s (f a s₁)) :
    p.Traced sink task s ((m >>= f) s₀) :=
  Outcome.Meets.bind hm fun a s₁ ha _ => hf a s₁ ha

theorem pure (a : α) : p.Traced sink task s ((Pure.pure a : Eval α) s₀) := trivial

/-- An error is traced unless it is one of bounds. -/
theorem lift (h : ∀ e, x = .error e → e.InBounds) : p.Traced sink task s (Eval.lift x s₀) := by
  cases x with
  | ok a => exact pure a
  | error e => exact .inl (h e rfl)

theorem inChild (h : p.Traced sink task s (m s₀.enter)) :
    p.Traced sink task s (Eval.inChild m s₀) :=
  Outcome.Meets.inChild h

end Program.Traced

/-! ## Computations without an access -/

/-- The computation fails with no error of bounds. -/
def Eval.InBounds (m : Eval α) : Prop := ∀ s, (m s).Meets (fun _ _ => True) Error.InBounds

namespace Eval.InBounds

variable {m : Eval α} {f : α → Eval β} {x : Except Error α}

theorem traced (h : m.InBounds) (s₀ : State) : p.Traced sink task s (m s₀) :=
  (h s₀).mono (fun _ _ _ h => h) fun _ he => .inl he

theorem pure (a : α) : InBounds (Pure.pure a) := fun _ => trivial

theorem lift (h : ∀ e, x = .error e → e.InBounds) : InBounds (Eval.lift x) := by
  intro s
  cases x with
  | ok a => trivial
  | error e => exact h e rfl

theorem bind (hm : m.InBounds) (hf : ∀ a, (f a).InBounds) : (m >>= f).InBounds :=
  fun s => Outcome.Meets.bind (hm s) fun a s₁ _ _ => hf a s₁

theorem scope : InBounds Eval.scope := fun _ => trivial

theorem setScope (scope : Scope) : InBounds (Eval.setScope scope) := fun _ => trivial

theorem lookup (name : String) (span : Span) : InBounds (Eval.lookup name span) := by
  refine scope.bind fun s => lift fun e he => ?_
  rw [Scope.findVariable] at he
  cases hfound : s.var? name with
  | none => rw [hfound] at he; cases he; trivial
  | some found => rw [hfound] at he; cases he

theorem declare (binding : VariableBinding) (value : Value) (span : Span) :
    InBounds (Eval.declare binding value span) := by
  refine scope.bind fun s => (lift fun e he => ?_).bind fun t => setScope t
  rw [Scope.addVariable] at he
  split at he <;> cases he
  trivial

theorem declareArguments (span : Span) : ∀ (names : List String) (values : List Value),
    InBounds (ImpTree.declareArguments span names values) := by
  intro names
  induction names with
  | nil => exact fun _ => pure ()
  | cons name names ih =>
    intro values
    cases values with
    | nil => exact pure ()
    | cons value values => exact (declare (runVariable name) value span).bind fun _ => ih values

theorem declareFunctions (fs : List FunctionDef) : ∀ index : Nat,
    InBounds (ImpTree.declareFunctions index fs) := by
  induction fs with
  | nil => exact fun _ => pure ()
  | cons f rest ih =>
    intro index
    refine scope.bind fun s => (lift fun e he => ?_).bind fun t => (setScope t).bind fun _ =>
      ih (index + 1)
    simp only [Scope.addFunction] at he
    split at he <;> cases he
    trivial

theorem writeAll (sink : Sink) (texts : List String) : InBounds (Eval.writeAll sink texts) := by
  induction texts with
  | nil => exact pure ()
  | cons text rest ih =>
    have hwrite : InBounds (Eval.write sink text) := by
      intro s
      rw [Eval.write]
      cases sink.refusal? s.writes <;> trivial
    exact hwrite.bind fun _ => ih

theorem flush (sink : Sink) : InBounds (Eval.flush sink) := by
  rw [Eval.flush]
  cases sink.flushRefusal? with
  | none => exact pure ()
  | some reason => exact fun _ => trivial

/-- A built-in function accesses no list. -/
theorem invoke (sink : Sink) (arguments : List Value) (function : Builtin) :
    InBounds (function.invoke sink arguments) := by
  have hlines : ∀ values : List Value, InBounds (printLines sink values) := by
    intro values
    induction values with
    | nil => exact pure ()
    | cons v rest ih => exact (writeAll sink _).bind fun _ => ih
  cases function with
  | print => exact (hlines arguments).bind fun _ => pure _

end Eval.InBounds

/-! ## Expressions -/

/-- Within the rounds, calls go back to an access. -/
def Program.CallsTraced (p : Program) (sink : Sink) (n : Nat) : Prop :=
  ∀ index arguments s,
    p.Traced sink (.call index arguments) s ((p.host sink n).call index arguments s)

mutual

/-- **The errors of bounds of an expression go back to an access**, if those of calls do. -/
theorem Expr.evaluate_traced (hcalls : p.CallsTraced sink n) : ∀ (e : Expr) (s : State),
    p.Traced sink (.expr e) s (e.evaluate (p.host sink n) s)
  | .literal value span ty, s => .pure _
  | .group inner span ty, s =>
    (Expr.evaluate_traced hcalls inner s).within _ s fun _ _ => ⟨_, _, .inner⟩
  | .binary op left right span ty, s => by
    rw [Expr.evaluate]
    have hl := (Expr.evaluate_traced hcalls left s).within (.expr (.binary op left right span ty)) s
      fun _ _ => ⟨_, _, .left⟩
    refine hl.bind fun a s₁ ha => ?_
    have hr := Expr.evaluate_traced hcalls right s₁
    by_cases hop : op = .and ∨ op = .or
    · rw [if_pos hop]
      cases a with
      | boolean decided =>
        show p.Traced sink _ s ((if decided = (op == .or) then _ else _ : Eval Value) s₁)
        by_cases hopen : decided = (op == .or)
        · rw [if_pos hopen]
          exact .pure _
        · rw [if_neg hopen]
          exact (hr.within _ s fun _ _ => ⟨_, _, .undecided hop ⟨n, ha⟩ hopen⟩).bind fun b s₂ _ =>
            (Program.Traced.lift fun _ => (b.truth_bounds _).of_error).bind fun _ _ _ => .pure _
      | _ => exact .inl trivial
    · rw [if_neg hop]
      exact (hr.within _ s fun _ _ => ⟨_, _, .right hop ⟨n, ha⟩⟩).bind fun b s₂ _ =>
        .lift fun _ => (op.apply_emptyFree a b span).of_error
  | .var name binding span ty, s => by
    rw [Expr.evaluate]
    exact ((Eval.InBounds.lookup name span).traced s).bind fun _ _ _ => .pure _
  | .element name offset binding span ty, s => by
    rw [Expr.evaluate]
    refine ((Expr.evaluate_traced hcalls offset s).within _ s
      fun _ _ => ⟨_, _, .offset⟩).bind fun index s₁ hoffset => ?_
    cases hfound : s₁.scope.var? name with
    | none =>
      rw [Eval.lookup_bind_of_unknown hfound]
      exact .inl trivial
    | some found =>
      rw [Eval.bind_of_done (Eval.lookup_of_var? hfound)]
      cases helement : found.value.elementAt index span with
      | ok item => exact .pure _
      | error e =>
        rcases Value.elementAt_bounds helement with he | ⟨items, i, hlist, rfl, houtside, rfl⟩
        · exact .inl he
        · exact .inr (.here ⟨.read ⟨n, hoffset⟩ hfound hlist, houtside⟩)
  | .call name arguments binding span ty, s => by
    rw [Expr.evaluate]
    refine ((Expr.evaluateAll_traced hcalls arguments s).within _ s
      fun _ _ => ⟨_, _, .arguments⟩).bind fun values s₁ hvalues => ?_
    rw [Eval.bind_of_done Eval.scope_apply, Scope.findFunction]
    cases hc : s₁.scope.callee? name values.length with
    | none => exact .inl trivial
    | some c =>
      show p.Traced sink _ s (c.target.invoke (p.host sink n) values s₁)
      cases htarget : c.target with
      | builtin function => exact (Eval.InBounds.invoke _ values function).traced s₁
      | declared index =>
        exact (hcalls index values s₁).within _ s fun _ _ =>
          ⟨_, _, .callee ⟨n, hvalues⟩ hc htarget⟩
  | .list elements span ty, s => by
    rw [Expr.evaluate]
    exact ((Expr.evaluateAll_traced hcalls elements s).within _ s
      fun _ _ => ⟨_, _, .elements⟩).bind fun _ _ _ => .pure _

/-- So do those of expressions, one after the other. -/
theorem Expr.evaluateAll_traced (hcalls : p.CallsTraced sink n) : ∀ (es : List Expr) (s : State),
    p.Traced sink (.exprs es) s (Expr.evaluateAll (p.host sink n) es s)
  | [], s => .pure _
  | e :: rest, s => by
    rw [Expr.evaluateAll]
    exact ((Expr.evaluate_traced hcalls e s).within _ s
      fun _ _ => ⟨_, _, .firstExpr⟩).bind fun v s₁ hv =>
        ((Expr.evaluateAll_traced hcalls rest s₁).within _ s
          fun _ _ => ⟨_, _, .nextExprs ⟨n, hv⟩⟩).bind fun _ _ _ => .pure _

end

/-- A condition is an expression that is to be a truth value; it ends as one if it does. -/
theorem Expr.evaluateCondition_traced (hcalls : p.CallsTraced sink n) (condition : Expr) (s : State)
    (task : Task) (hstep : ∀ known waiting, ∃ known' waiting',
      p.Step sink ⟨task, s, known, waiting⟩ ⟨.expr condition, s, known', waiting'⟩) :
    p.Traced sink task s (condition.evaluateCondition (p.host sink n) s) :=
  ((condition.evaluate_traced hcalls s).within task s hstep).bind fun v _ _ =>
    .lift fun _ => (v.truth_bounds _).of_error

theorem Expr.evaluateOption_traced (hcalls : p.CallsTraced sink n) (value : Option Expr)
    (s : State) (task : Task)
    (hstep : ∀ e, value = some e → ∀ known waiting, ∃ known' waiting',
      p.Step sink ⟨task, s, known, waiting⟩ ⟨.expr e, s, known', waiting'⟩) :
    p.Traced sink task s (Expr.evaluateOption (p.host sink n) value s) := by
  cases value with
  | none => exact .pure _
  | some e => exact (e.evaluate_traced hcalls s).within task s (hstep e rfl)

/-! ## Statements -/

/-- A condition that comes out has a truth value. -/
theorem Expr.ends_of_evaluateCondition {condition : Expr} {holds : Bool}
    (h : condition.evaluateCondition (p.host sink n) s = .done holds s₁) :
    p.Ends sink (fun host => condition.evaluate host) s (.boolean holds) s₁ := by
  rw [Expr.evaluateCondition] at h
  obtain ⟨v, s', hv, hlift⟩ := Eval.bind_eq_done.1 h
  cases v with
  | boolean b =>
    cases hlift
    exact ⟨n, hv⟩
  | _ => cases hlift

/-- Writing an element fails outside the list only, if the error is one of bounds. -/
theorem assignTo_element_traced {name : String} {offset value : Expr}
    {binding : Slot VariableBinding} {place span : Span} {ty : Slot Ty} {index v : Value}
    {s₂ : State}
    (hoffset : p.Ends sink (fun host => offset.evaluate host) s index s₁)
    (hvalue : p.Ends sink (fun host => value.evaluate host) s₁ v s₂) :
    p.Traced sink (.stmt (.assignment (.element name offset binding place ty) value span)) s
      (assignTo name (some index) v place span s₂) := by
  cases hfound : s₂.scope.var? name with
  | none =>
    rw [assignTo, Eval.lookup_bind_of_unknown hfound]
    exact .inl trivial
  | some found =>
    cases hmutable : found.binding.isMutable with
    | false =>
      rw [assignTo_immutable hfound hmutable]
      exact .inl trivial
    | true =>
      cases helement : found.value.withElementAt index v place with
      | ok changed =>
        rw [assignTo_element hfound hmutable helement]
        exact trivial
      | error e =>
        rw [assignTo_element_failed hfound hmutable helement]
        rcases Value.withElementAt_bounds helement with he | ⟨items, i, hlist, rfl, houtside, rfl⟩
        · exact .inl he
        · exact .inr (.here ⟨.write hoffset hvalue hfound hmutable hlist, houtside⟩)

/-- Writing a variable accesses no list. -/
theorem Eval.InBounds.assignTo_variable (name : String) (value : Value) (place span : Span) :
    Eval.InBounds (assignTo name none value place span) := by
  refine (Eval.InBounds.lookup name place).bind fun found => ?_
  split
  · exact Eval.InBounds.scope.bind fun s => Eval.InBounds.setScope (s.assign name value)
  · exact fun _ => trivial

mutual

/-- **The errors of bounds of a statement go back to an access**, if those of calls do. -/
theorem Stmt.execute_traced (hcalls : p.CallsTraced sink n) : ∀ (stmt : Stmt) (s : State),
    p.Traced sink (.stmt stmt) s (stmt.execute (p.host sink n) s)
  | .expression expr span, s => by
    rw [Stmt.execute]
    exact ((expr.evaluate_traced hcalls s).within _ s
      fun _ _ => ⟨_, _, .expression⟩).bind fun _ _ _ => .pure _
  | .declaration name typeName value binding span, s => by
    rw [Stmt.execute]
    refine (Expr.evaluateOption_traced hcalls value s _ ?_).bind fun v s₁ _ =>
      ((Eval.InBounds.declare _ v span).traced s₁).bind fun _ _ _ => .pure _
    rintro e rfl known waiting
    exact ⟨known, waiting, .initial⟩
  | .assignment receiver value span, s => by
    cases receiver with
    | var name binding place ty =>
      rw [Stmt.execute]
      exact ((value.evaluate_traced hcalls s).within _ s
        fun _ _ => ⟨_, _, .assigned⟩).bind fun v s₁ _ =>
          ((Eval.InBounds.assignTo_variable name v place span).traced s₁).bind fun _ _ _ => .pure _
    | element name offset binding place ty =>
      rw [Stmt.execute]
      refine ((offset.evaluate_traced hcalls s).within _ s
        fun _ _ => ⟨_, _, .assignedOffset⟩).bind fun index s₁ hoffset => ?_
      refine ((value.evaluate_traced hcalls s₁).within _ s
        fun _ _ => ⟨_, _, .assignedElement ⟨n, hoffset⟩⟩).bind fun v s₂ hvalue => ?_
      exact (assignTo_element_traced ⟨n, hoffset⟩ ⟨n, hvalue⟩).bind fun _ _ _ => .pure _
    | _ => exact .inl trivial
  | .ifElse condition thenBody elseBody span, s => by
    rw [Stmt.execute]
    refine (condition.evaluateCondition_traced hcalls s _
      fun _ _ => ⟨_, _, .ifCondition⟩).bind fun holds s₁ hcondition => ?_
    have hends := Expr.ends_of_evaluateCondition hcondition
    cases holds with
    | true =>
      exact ((Stmt.executeBlock_traced hcalls thenBody s₁.enter).within _ s
        fun _ _ => ⟨_, _, .thenBody hends⟩).inChild
    | false =>
      exact ((Stmt.executeBlock_traced hcalls elseBody s₁.enter).within _ s
        fun _ _ => ⟨_, _, .elseBody hends⟩).inChild
  | .switch condition cases span, s => by
    rw [Stmt.execute]
    exact ((condition.evaluate_traced hcalls s).within _ s
      fun _ _ => ⟨_, _, .switchCondition⟩).bind fun v s₁ hcondition =>
        (Stmt.executeCases_traced hcalls v cases s₁).within _ s
          fun _ _ => ⟨_, _, .arms ⟨n, hcondition⟩⟩
  | .whileLoop condition body span, s => by
    rw [Stmt.execute]
    have hround : ∀ s, True → (condition.evaluateCondition (p.host sink n) s).Meets
        (fun holds s₁ => if holds then
          p.Ends sink (fun host => condition.evaluate host) s (.boolean true) s₁ else True)
        (p.Blames sink (.stmt (.whileLoop condition body span)) s) := by
      intro s _
      have hcondition := condition.evaluateCondition_traced hcalls s
        (.stmt (.whileLoop condition body span)) fun _ _ => ⟨_, _, .whileCondition⟩
      refine hcondition.mono (fun holds s₁ hdone _ => ?_) fun _ he => he
      cases holds with
      | false => trivial
      | true => exact Expr.ends_of_evaluateCondition hdone
    refine Outcome.Meets.loop hround (fun s s₁ _ _ hends => ?_) n s trivial
    have hbody := ((Stmt.executeBlock_traced hcalls body s₁.enter).within
      (.stmt (.whileLoop condition body span)) s fun _ _ => ⟨_, _, .whileBody hends⟩).inChild
    refine hbody.mono (fun flow s₂ _ _ => ?_) fun _ he => he
    cases flow with
    | none =>
      -- an error of a later round goes back through this one
      exact ⟨trivial, fun hdone e he => he.of_step fun _ _ => ⟨_, _, .again hends ⟨n, hdone⟩⟩⟩
    | some v => trivial
  | .ret value span, s => by
    rw [Stmt.execute]
    exact ((value.evaluate_traced hcalls s).within _ s
      fun _ _ => ⟨_, _, .result⟩).bind fun _ _ _ => .pure _

/-- So do those of statements, one after the other. -/
theorem Stmt.executeBlock_traced (hcalls : p.CallsTraced sink n) :
    ∀ (block : List Stmt) (s : State),
    p.Traced sink (.block block) s (Stmt.executeBlock (p.host sink n) block s)
  | [], s => .pure _
  | stmt :: rest, s => by
    rw [Stmt.executeBlock]
    refine ((Stmt.execute_traced hcalls stmt s).within _ s
      fun _ _ => ⟨_, _, .firstStmt⟩).bind fun flow s₁ hstmt => ?_
    cases flow with
    | none =>
      exact (Stmt.executeBlock_traced hcalls rest s₁).within _ s
        fun _ _ => ⟨_, _, .nextStmts ⟨n, hstmt⟩⟩
    | some v => exact .pure _

/-- So do those of the arms of a switch. -/
theorem Stmt.executeCases_traced (hcalls : p.CallsTraced sink n) (v : Value) :
    ∀ (arms : List Case) (s : State),
      p.Traced sink (.cases v arms) s (Stmt.executeCases (p.host sink n) v arms s)
  | [], s => .pure _
  | .mk none body span :: rest, s => by
    rw [Stmt.executeCases_default]
    exact ((Stmt.executeBlock_traced hcalls body s.enter).within _ s
      fun _ _ => ⟨_, _, .defaultBody⟩).inChild
  | .mk (some e) body span :: rest, s => by
    rw [Stmt.executeCases_value]
    refine ((e.evaluate_traced hcalls s).within _ s
      fun _ _ => ⟨_, _, .armValue⟩).bind fun x s₁ hx => ?_
    by_cases hsame : x.same v = true
    · rw [if_pos hsame]
      exact ((Stmt.executeBlock_traced hcalls body s₁.enter).within _ s
        fun _ _ => ⟨_, _, .armBody ⟨n, hx⟩ hsame⟩).inChild
    · rw [if_neg hsame]
      exact (Stmt.executeCases_traced hcalls v rest s₁).within _ s
        fun _ _ => ⟨_, _, .nextArms ⟨n, hx⟩ (Bool.not_eq_true _ ▸ hsame)⟩

end

/-! ## Programs -/

/-- **The errors of bounds of calls go back to an access**, by induction on how deep they nest. -/
theorem Program.calls_traced (p : Program) (sink : Sink) : ∀ n, p.CallsTraced sink n := by
  intro n
  induction n with
  | zero => exact fun _ _ _ => trivial
  | succ n ih =>
    intro index arguments s
    show p.Traced sink _ s (callWithin sink p.functions (n + 1) index arguments s)
    rw [callWithin]
    cases hf : p.functions[index]? with
    | none => exact .inl trivial
    | some f =>
      refine Outcome.Meets.inCall ?_
      refine ((Eval.InBounds.declareArguments f.span f.parameters arguments).traced
        s.enterCall).bind fun _ s₁ harguments => ?_
      exact ((Stmt.executeBlock_traced ih f.body s₁).within _ s
        fun _ _ => ⟨_, _, .body hf harguments⟩).bind fun _ _ _ => .pure _

/-- So do those of globals. -/
theorem declareGlobals_traced (hcalls : p.CallsTraced sink n) : ∀ (globals : List Global)
    (s : State), p.Traced sink (.globals globals) s (declareGlobals (p.host sink n) globals s) := by
  intro globals
  induction globals with
  | nil => exact fun _ => .pure _
  | cons g rest ih =>
    intro s
    rw [declareGlobals]
    refine (Expr.evaluateOption_traced hcalls g.value s _ fun e he known waiting =>
      ⟨known, waiting, .globalValue he⟩).bind fun v s₁ hvalue => ?_
    refine ((Eval.InBounds.declare _ v g.span).traced s₁).bind fun _ s₂ hdeclare => ?_
    exact (ih s₂).within _ s fun _ _ => ⟨_, _, .nextGlobal ⟨n, hvalue⟩ hdeclare⟩

/-- **So do those of whole runs.** -/
theorem Program.start_traced (p : Program) (sink : Sink) (n : Nat) (s : State) :
    p.Traced sink .program s (p.start (p.host sink n) s) := by
  have hcalls := p.calls_traced sink n
  refine ((declareGlobals_traced hcalls p.globals s).within .program s
    fun _ _ => ⟨_, _, .globals⟩).bind fun _ s₁ hglobals => ?_
  refine ((Eval.InBounds.declareFunctions p.functions 0).traced s₁).bind fun _ s₂ hfunctions => ?_
  rw [Eval.bind_of_done Eval.scope_apply]
  cases hmain : s₂.scope.mainIndex with
  | error e =>
    refine .inl ?_
    rw [Scope.mainIndex] at hmain
    split at hmain <;> cases hmain
    trivial
  | ok index =>
    exact ((hcalls index [] s₂).within .program s
      fun _ _ => ⟨_, _, .main ⟨n, hglobals⟩ hfunctions hmain⟩).bind fun v s₃ _ =>
        ((Eval.InBounds.flush _).traced s₃).bind fun _ _ _ => .pure _

/-- **Where an error of bounds comes from**: the run has come to a moment at which a list is
accessed at an integer that is none of its positions, which fails after the same writes with this
very error. -/
theorem Program.exists_exceeds {rounds : Nat} {index : String} {length : Nat} {span : Span}
    {writes : List String}
    (h : p.runWithin rounds sink = some ⟨.error (.indexOutOfBounds index length span), writes⟩) :
    ∃ m, p.Reaches sink m ∧ p.Exceeds sink m.task m.state (.indexOutOfBounds index length span) ∧
      m.task.Raises p sink m.state (.indexOutOfBounds index length span) writes.reverse := by
  have hfailed := RunResult.ofOutcome?_eq_error h
  rcases (p.start_traced sink rounds ⟨.initial, []⟩).of_failed hfailed with hbounds | hleads
  · exact hbounds.elim
  · obtain ⟨m, hm, hexceeds⟩ := hleads .initial []
    obtain ⟨accepted, hraises⟩ := hexceeds.raises
    have hgrows : Host.Grows fun host => p.start host := fun _ _ h => p.start_approximates h
    have haccess : p.ComesTo sink (fun host => p.start host) ⟨.initial, []⟩
        (.failed (.indexOutOfBounds index length span) accepted) :=
      .of_eventually nofun (Program.Reaches.raises hm hraises)
    -- a program comes to one outcome only, so the writes of the access are those of the run
    cases Program.ComesTo.unique hgrows haccess (.of_failed hfailed)
    exact ⟨m, hm, hexceeds, hraises⟩

end Traces

end ImpTree
