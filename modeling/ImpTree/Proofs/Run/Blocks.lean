import ImpTree.Proofs.Run.Effects
import ImpTree.Proofs.Scope.Growth

/-!
# What a block does to the scope

A block gains the variables that it declares itself, one after the other until the function ends,
and keeps everything else.  What blocks inside it declare ends with them, and a call gives the scope
back with nothing gained.

* `Scope.Steady`, `Scope.Grows` — what an expression and what a block does to a scope.
* `Stmt.declared`, `Stmt.blockDeclared` — the variables that a statement and a block declare
  themselves.
* `Eval.Executes` — a computation that gains declared variables up to the end of the function.
* `Stmt.execute_executes`, `Stmt.executeBlock_executes` — **statements and blocks.**
* `Program.host_steady` — **calls.**
-/

namespace ImpTree

/-! ## Scopes -/

/-- If the scope is lexical, it stays lexical, with the same names and immutable values. -/
def Scope.Steady (s t : Scope) : Prop := s.Lexical → t.Lexical ∧ s.Kept t

/-- If the scope is lexical, it stays lexical, and only the innermost frame gains variables. -/
def Scope.Grows (s t : Scope) : Prop := s.Lexical → t.Lexical ∧ ∃ gained, s.Grown gained t

/-- A part of a function has been executed: of the declared variables the scope has gained all, or
some of them if the function's result is known. -/
structure Scope.Executed (declared : List VariableBinding) (flow : Flow) (s t : Scope) : Prop where
  /-- The scope is still lexical. -/
  lexical : t.Lexical
  /-- The variables are gained in the order of their declarations. -/
  grown : ∃ gained, gained <+: declared ∧ (flow = none → gained = declared) ∧ s.Grown gained t

namespace Scope

variable {s t u : Scope} {declared later : List VariableBinding} {flow : Flow} {v : Value}

theorem Steady.refl (s : Scope) : s.Steady s := fun h => ⟨h, .refl s⟩

theorem Steady.trans (h : s.Steady t) (h' : t.Steady u) : s.Steady u := by
  intro hs
  obtain ⟨ht, hkept⟩ := h hs
  obtain ⟨hu, hkept'⟩ := h' ht
  exact ⟨hu, hkept.trans hkept'⟩

theorem Steady.grows (h : s.Steady t) : s.Grows t := fun hs => ⟨(h hs).1, [], (h hs).2.grown⟩

theorem Grows.refl (s : Scope) : s.Grows s := (Steady.refl s).grows

theorem Grows.trans (h : s.Grows t) (h' : t.Grows u) : s.Grows u := by
  intro hs
  obtain ⟨ht, gained, hgrown⟩ := h hs
  obtain ⟨hu, gained', hgrown'⟩ := h' ht
  exact ⟨hu, gained ++ gained', hgrown.trans hgrown'⟩

/-- What is gained in a frame of its own ends with the frame. -/
theorem Grows.leave (h : s.child.Grows t) : s.Steady t.leave := by
  intro hs
  obtain ⟨ht, gained, hgrown⟩ := h hs.child
  exact ⟨ht.leave, hgrown.leave⟩

/-- What is gained in the frame of a call ends with the call. -/
theorem Grows.restore (h : s.global.child.Grows t) : s.Steady ⟨s.inner, t.root⟩ := by
  intro hs
  obtain ⟨ht, gained, hgrown⟩ := h hs.global.child
  exact ⟨hs.restore ht, hgrown.restore⟩

theorem Executed.grows (h : Executed declared flow s t) : s.Grows t := by
  obtain ⟨gained, -, -, hgrown⟩ := h.grown
  exact fun _ => ⟨h.lexical, gained, hgrown⟩

/-- Where nothing is declared, nothing is gained. -/
theorem Steady.executed (h : s.Steady t) (hs : s.Lexical) (flow : Flow) : Executed [] flow s t :=
  ⟨(h hs).1, [], List.prefix_rfl, fun _ => rfl, (h hs).2.grown⟩

/-- Before anything is executed, the scope may change without gaining anything. -/
theorem Executed.after (h : s.Steady t) (hs : s.Lexical) (h' : Executed declared flow t u) :
    Executed declared flow s u := by
  obtain ⟨gained, hprefix, hall, hgrown⟩ := h'.grown
  exact ⟨h'.lexical, gained, hprefix, hall, (h hs).2.grown.trans hgrown⟩

/-- If a part lets the function go on, what it declares comes before what is declared later. -/
theorem Executed.andThen (h : Executed declared none s t) (h' : Executed later flow t u) :
    Executed (declared ++ later) flow s u := by
  obtain ⟨gained, -, hall, hgrown⟩ := h.grown
  obtain ⟨gained', hprefix, hall', hgrown'⟩ := h'.grown
  obtain rfl := hall rfl
  exact ⟨h'.lexical, gained ++ gained', (List.prefix_append_right_inj gained).2 hprefix,
    fun hflow => congrArg (gained ++ ·) (hall' hflow), hgrown.trans hgrown'⟩

/-- If a part ends the function, nothing is declared later. -/
theorem Executed.ended (h : Executed declared (some v) s t) :
    Executed (declared ++ later) (some v) s t := by
  obtain ⟨gained, hprefix, -, hgrown⟩ := h.grown
  exact ⟨h.lexical, gained, hprefix.trans (List.prefix_append declared later), nofun, hgrown⟩

end Scope

/-! ## Statements -/

/-- The variable that a statement declares itself, not in a block inside it. -/
def Stmt.declared : Stmt → List VariableBinding
  | .declaration name _ _ _ _ => [runVariable name]
  | _ => []

/-- The variables that a block declares itself, not in blocks inside it. -/
def Stmt.blockDeclared (block : List Stmt) : List VariableBinding := block.flatMap Stmt.declared

/-- In a lexical scope, the computation gains declared variables, all of them if it lets the
function go on. -/
def Eval.Executes (declared : List VariableBinding) (m : Eval Flow) : Prop :=
  ∀ s, s.scope.Lexical →
    (m s).Meets (fun flow t => Scope.Executed declared flow s.scope t.scope) fun _ => True

namespace Eval

variable {α : Type} {m : Eval α} {declared later : List VariableBinding}

theorem Acts.mono {R R' : Scope → Scope → Prop} (h : m.Acts R) (hR : ∀ s t, R s t → R' s t) :
    m.Acts R' :=
  fun s => (h s).mono (fun _ _ _ ht => hR _ _ ht) fun _ h => h

/-- Steady computations go on from where the first one ends. -/
theorem Acts.steady_bind {β : Type} {f : α → Eval β} (hm : m.Acts Scope.Steady)
    (hf : ∀ a, (f a).Acts Scope.Steady) : (m >>= f).Acts Scope.Steady :=
  hm.bind Scope.Steady.trans hf

/-- Computations that grow the scope go on from where the first one ends. -/
theorem Acts.grows_bind {β : Type} {f : α → Eval β} (hm : m.Acts Scope.Grows)
    (hf : ∀ a, (f a).Acts Scope.Grows) : (m >>= f).Acts Scope.Grows :=
  hm.bind Scope.Grows.trans hf

/-- A computation in a frame of its own. -/
theorem Acts.inChild (hm : m.Acts Scope.Grows) : (Eval.inChild m).Acts Scope.Steady :=
  fun _ => Outcome.Meets.inChild ((hm _).mono (fun _ _ _ h => Scope.Grows.leave h) fun _ h => h)

/-- A computation in a frame directly inside the root. -/
theorem Acts.inCall (hm : m.Acts Scope.Grows) : (Eval.inCall m).Acts Scope.Steady :=
  fun _ => Outcome.Meets.inCall ((hm _).mono (fun _ _ _ h => Scope.Grows.restore h) fun _ h => h)

/-- A declaration. -/
theorem declare_grows (binding : VariableBinding) (value : Value) (span : Span) :
    (Eval.declare binding value span).Acts Scope.Grows := by
  intro s
  rw [declare, bind_of_done scope_apply]
  cases hadd : s.scope.addVariable binding value span with
  | error e => trivial
  | ok after =>
    obtain ⟨hnew, rfl⟩ := Scope.addVariable_eq_ok.1 hadd
    exact fun hs => ⟨hs.withVariable hnew, [binding], s.scope.grown_withVariable ⟨binding, value⟩⟩

namespace Executes

/-- A computation that gains variables grows the scope. -/
theorem grows {m : Eval Flow} (hm : m.Executes declared) : m.Acts Scope.Grows := by
  intro s
  by_cases hs : s.scope.Lexical
  · exact (hm s hs).mono (fun _ _ _ h => h.grows) fun _ h => h
  · cases m s with
    | done flow t => exact fun h => absurd h hs
    | failed e writes => trivial
    | unfinished => trivial

/-- A steady computation that is executed gains nothing. -/
theorem of_steady {m : Eval Flow} (hm : m.Acts Scope.Steady) : m.Executes [] :=
  fun s hs => (hm s).mono (fun flow _ _ h => h.executed hs flow) fun _ h => h

/-- A steady computation before the execution. -/
theorem after {f : α → Eval Flow} (hm : m.Acts Scope.Steady)
    (hf : ∀ a, (f a).Executes declared) : (m >>= f).Executes declared := by
  intro s hs
  refine (hm s).bind fun a t _ ht => ?_
  exact (hf a t (ht hs).1).mono (fun _ _ _ h => .after ht hs h) fun _ h => h

/-- A part of a function, and the parts after it unless the function has ended. -/
theorem andThen {m rest : Eval Flow} (hm : m.Executes declared) (hrest : rest.Executes later) :
    Executes (declared ++ later) (m >>= fun flow =>
      match flow with
      | none => rest
      | some value => pure (some value)) := by
  intro s hs
  refine (hm s hs).bind fun flow t _ ht => ?_
  cases flow with
  | none => exact (hrest t ht.lexical).mono (fun _ _ _ h => ht.andThen h) fun _ h => h
  | some v => exact ht.ended

/-- A declaration. -/
theorem declare (name : String) (value : Value) (span : Span) :
    Executes [runVariable name] (do
      Eval.declare (runVariable name) value span
      return none) := by
  intro s hs
  rw [Eval.declare, bind_assoc, bind_of_done scope_apply]
  cases hadd : s.scope.addVariable (runVariable name) value span with
  | error e => trivial
  | ok after =>
    obtain ⟨hnew, rfl⟩ := Scope.addVariable_eq_ok.1 hadd
    exact ⟨hs.withVariable hnew, [runVariable name], List.prefix_rfl, fun _ => rfl,
      s.scope.grown_withVariable ⟨runVariable name, value⟩⟩

/-- A loop: every round is steady, and so are all of them together. -/
theorem loop {condition : Eval Bool} {body : Eval Flow} (hcondition : condition.Acts Scope.Steady)
    (hbody : body.Acts Scope.Steady) (rounds : Nat) :
    Executes [] (Eval.loop condition body rounds) := by
  refine of_steady ?_
  induction rounds with
  | zero => exact fun _ => trivial
  | succ rounds ih =>
    rw [loop_succ]
    refine hcondition.steady_bind fun holds => ?_
    cases holds with
    | false => exact .pure Scope.Steady.refl _
    | true =>
      refine hbody.steady_bind fun flow => ?_
      cases flow with
      | none => exact ih
      | some v => exact .pure Scope.Steady.refl _

end Executes

end Eval

/-- **An assignment keeps every name and whatever is immutable.** -/
theorem assignTo_steady (name : String) (index : Option Value) (value : Value)
    (place span : Span) : (assignTo name index value place span).Acts Scope.Steady := by
  intro s
  cases h : assignTo name index value place span s with
  | done _ t =>
    obtain ⟨found, new, hfound, hmutable, -, rfl⟩ := assignTo_eq_done.1 h
    intro hs
    have hkept := (Scope.Replaced.assign hs hfound hmutable new).kept
    exact ⟨hkept.lexical hs, hkept⟩
  | failed e writes => trivial
  | unfinished => trivial

section Hosts

variable {host : Host}

/-- Where calls are steady, expressions are. -/
theorem Expr.evaluate_steady (h : host.Acts Scope.Steady) (e : Expr) :
    (e.evaluate host).Acts Scope.Steady :=
  Expr.evaluate_acts Scope.Steady.refl Scope.Steady.trans h e

/-- Where calls are steady, conditions are. -/
theorem Expr.evaluateCondition_steady (h : host.Acts Scope.Steady) (condition : Expr) :
    (condition.evaluateCondition host).Acts Scope.Steady :=
  Expr.evaluateCondition_acts Scope.Steady.refl Scope.Steady.trans h condition

/-- Where calls are steady, initial values are. -/
theorem Expr.evaluateOption_steady (h : host.Acts Scope.Steady) (value : Option Expr) :
    (Expr.evaluateOption host value).Acts Scope.Steady :=
  Expr.evaluateOption_acts Scope.Steady.refl Scope.Steady.trans h value

namespace Stmt

mutual

/-- **A statement gains the variable that it declares**, if it declares one, and nothing else. -/
theorem execute_executes (h : host.Acts Scope.Steady) : ∀ stmt : Stmt,
    (stmt.execute host).Executes stmt.declared
  | .expression expr span => by
    rw [execute]
    exact .after (Expr.evaluate_steady h expr) fun _ => .of_steady (.pure Scope.Steady.refl _)
  | .declaration name typeName value binding span => by
    rw [execute]
    exact .after (Expr.evaluateOption_steady h value) fun value => .declare name value span
  | .assignment receiver value span => by
    have hvalue := Expr.evaluate_steady h value
    cases receiver with
    | var name binding place ty =>
      rw [execute]
      exact .after hvalue fun value => .after (assignTo_steady name none value place span)
        fun _ => .of_steady (.pure Scope.Steady.refl _)
    | element name offset binding place ty =>
      rw [execute]
      exact .after (Expr.evaluate_steady h offset) fun index => .after hvalue fun value =>
        .after (assignTo_steady name (some index) value place span)
          fun _ => .of_steady (.pure Scope.Steady.refl _)
    | _ => exact fun _ _ => trivial
  | .ifElse condition thenBody elseBody span => by
    rw [execute]
    refine .after (Expr.evaluateCondition_steady h condition) fun holds => ?_
    cases holds with
    | true => exact .of_steady (executeBlock_executes h thenBody).grows.inChild
    | false => exact .of_steady (executeBlock_executes h elseBody).grows.inChild
  | .switch condition cases span => by
    rw [execute]
    exact .after (Expr.evaluate_steady h condition) fun v => executeCases_executes h v cases
  | .whileLoop condition body span => by
    rw [execute]
    exact .loop (Expr.evaluateCondition_steady h condition)
      (executeBlock_executes h body).grows.inChild host.rounds
  | .ret value span => by
    rw [execute]
    exact .after (Expr.evaluate_steady h value) fun _ => .of_steady (.pure Scope.Steady.refl _)

/-- **A block gains the variables that it declares itself**, up to the end of the function. -/
theorem executeBlock_executes (h : host.Acts Scope.Steady) : ∀ block : List Stmt,
    (executeBlock host block).Executes (blockDeclared block)
  | [] => .of_steady (.pure Scope.Steady.refl _)
  | stmt :: rest => by
    rw [executeBlock]
    exact (execute_executes h stmt).andThen (executeBlock_executes h rest)

/-- The arms of a switch gain nothing. -/
theorem executeCases_executes (h : host.Acts Scope.Steady) (v : Value) : ∀ arms : List Case,
    (executeCases host v arms).Executes []
  | [] => .of_steady (.pure Scope.Steady.refl _)
  | .mk (some e) body span :: rest => by
    rw [executeCases_value]
    refine .after (Expr.evaluate_steady h e) fun x => ?_
    by_cases hsame : x.same v = true
    · rw [if_pos hsame]
      exact .of_steady (executeBlock_executes h body).grows.inChild
    · rw [if_neg hsame]
      exact executeCases_executes h v rest
  | .mk none body span :: rest => by
    rw [executeCases_default]
    exact .of_steady (executeBlock_executes h body).grows.inChild

end

end Stmt

/-! ## Calls -/

/-- The frame of a call gains the arguments. -/
theorem declareArguments_grows (span : Span) : ∀ (names : List String) (values : List Value),
    (declareArguments span names values).Acts Scope.Grows
  | name :: names, value :: values => by
    rw [declareArguments]
    exact (Eval.declare_grows (runVariable name) value span).grows_bind
      fun _ => declareArguments_grows span names values
  | [], _ => .pure Scope.Grows.refl ()
  | _ :: _, [] => .pure Scope.Grows.refl ()

/-- A call is steady if the calls in the body are. -/
theorem FunctionDef.apply_steady (h : host.Acts Scope.Steady) (f : FunctionDef)
    (arguments : List Value) : (f.apply host arguments).Acts Scope.Steady :=
  ((declareArguments_grows f.span f.parameters arguments).grows_bind fun _ =>
    (Stmt.executeBlock_executes h f.body).grows.grows_bind fun _ =>
      .pure Scope.Grows.refl _).inCall

end Hosts

/-- **Calls are steady**, by induction on their depth. -/
theorem Program.host_steady (p : Program) (sink : Sink) (rounds : Nat) :
    (p.host sink rounds).Acts Scope.Steady := by
  have hcalls : ∀ depth index arguments,
      (callWithin sink p.functions depth index arguments).Acts Scope.Steady := by
    intro depth
    induction depth with
    | zero => exact fun _ _ _ => trivial
    | succ depth ih =>
      intro index arguments
      have hhost : Host.Acts Scope.Steady ⟨sink, depth, callWithin sink p.functions depth⟩ := ih
      rw [callWithin]
      cases p.functions[index]? with
      | none => exact fun _ => trivial
      | some f => exact FunctionDef.apply_steady hhost f arguments
  exact hcalls rounds

/-- Globals are gained one after the other. -/
theorem declareGlobals_grows {host : Host} (h : host.Acts Scope.Steady) : ∀ globals : List Global,
    (declareGlobals host globals).Acts Scope.Grows := by
  intro globals
  induction globals with
  | nil => exact .pure Scope.Grows.refl ()
  | cons g rest ih =>
    rw [declareGlobals]
    exact ((Expr.evaluateOption_steady h g.value).mono fun _ _ => Scope.Steady.grows).grows_bind
      fun _ => (Eval.declare_grows _ _ g.span).grows_bind fun _ => ih

end ImpTree
