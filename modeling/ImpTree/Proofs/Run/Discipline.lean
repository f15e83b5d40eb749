import ImpTree.Proofs.Run.Blocks
import ImpTree.Proofs.Run.Declared
import ImpTree.Proofs.Run.Raising
import ImpTree.Tree.Build

/-!
# Block discipline over whole runs

Every scope that arises in a run is lexical, so what a block does to a lexical scope it does
wherever it is executed.  Whatever a run does after the declaration of an immutable global, the
global keeps its initial value.

* `Program.Arises` — the scopes of a run.
* `Scope.Preserves` — a lexical scope stays lexical and keeps the immutable variables of its root.
* `Program.Step.preserves` — **every step of a run preserves the scope.**
* `Program.Initializes` — what an initial value evaluates to, and the state after the declaration.
* `Program.block_discipline` — **blocks, statements and immutable globals.**
-/

namespace ImpTree

open Relation (ReflTransGen)

/-! ## Scopes -/

/-- A lexical scope stays lexical and keeps the immutable variables of its root. -/
def Scope.Preserves (s t : Scope) : Prop :=
  s.Lexical → t.Lexical ∧ ∀ name v, s.root.var? name = some v → v.binding.isMutable = false →
    t.root.var? name = some v

namespace Scope

variable {s t u : Scope}

theorem Preserves.refl (s : Scope) : s.Preserves s := fun h => ⟨h, fun _ _ hv _ => hv⟩

theorem Preserves.trans (h : s.Preserves t) (h' : t.Preserves u) : s.Preserves u := by
  intro hs
  obtain ⟨ht, hroot⟩ := h hs
  obtain ⟨hu, hroot'⟩ := h' ht
  exact ⟨hu, fun name v hv himmutable => hroot' name v (hroot name v hv himmutable) himmutable⟩

theorem Grows.preserves (h : s.Grows t) : s.Preserves t := by
  intro hs
  obtain ⟨ht, gained, hgrown⟩ := h hs
  exact ⟨ht, fun _ _ hv himmutable => hgrown.root_var? ht hv himmutable⟩

theorem Steady.preserves (h : s.Steady t) : s.Preserves t := h.grows.preserves

theorem preserves_child (s : Scope) : s.Preserves s.child := fun h => ⟨h.child, fun _ _ hv _ => hv⟩

theorem preserves_enterCall (s : Scope) : s.Preserves s.global.child :=
  fun h => ⟨h.global.child, fun _ _ hv _ => hv⟩

/-- Other functions in a root that stands alone change no variable. -/
theorem preserves_withCallees (hinner : s.inner = []) (cs : List Callee) :
    s.Preserves (s.withCallees cs) := by
  obtain ⟨inner, root⟩ := s
  subst hinner
  exact fun h => ⟨⟨List.forall_mem_nil _, h.root, List.forall_mem_nil _⟩, fun _ _ hv _ => hv⟩

/-- A root that stands alone still does when it has grown. -/
theorem Grows.inner_eq_nil (h : s.Grows t) (hs : s.Lexical) (hinner : s.inner = []) :
    t.inner = [] := by
  obtain ⟨-, gained, hgrown⟩ := h hs
  cases hgrown with
  | root _ => rfl
  | inner _ _ _ => cases hinner

end Scope

/-! ## Computations that end -/

section Ends

variable {p : Program} {sink : Sink} {s s₁ : State}

/-- What a computation does to every scope it does where it ends. -/
theorem Program.Ends.acts {α : Type} {R : Scope → Scope → Prop} {m : Host → Eval α} {a : α}
    (h : p.Ends sink m s a s₁) (hm : ∀ host : Host, host.Acts Scope.Steady → (m host).Acts R) :
    R s.scope s₁.scope := by
  obtain ⟨rounds, h⟩ := h
  exact (hm _ (p.host_steady sink rounds)).of_done h

theorem Program.Ends.expr_preserves {e : Expr} {v : Value}
    (h : p.Ends sink (fun host => e.evaluate host) s v s₁) : s.scope.Preserves s₁.scope :=
  (h.acts fun _ hhost => Expr.evaluate_steady hhost e).preserves

theorem Program.Ends.stmt_preserves {stmt : Stmt} {flow : Flow}
    (h : p.Ends sink (fun host => stmt.execute host) s flow s₁) : s.scope.Preserves s₁.scope :=
  (h.acts fun _ hhost => (Stmt.execute_executes hhost stmt).grows).preserves

theorem Program.Ends.globals_grow {globals : List Global}
    (h : p.Ends sink (fun host => declareGlobals host globals) s () s₁) :
    s.scope.Grows s₁.scope :=
  h.acts fun _ hhost => declareGlobals_grows hhost globals

/-- A global grows the scope by itself. -/
theorem Program.Ends.global_grows {g : Global} {v : Value} {s₂ : State}
    (h : p.Ends sink (fun host => Expr.evaluateOption host g.value) s v s₁)
    (hdeclare : Eval.declare ⟨g.name, .any, g.isMutable⟩ v g.span s₁ = .done () s₂) :
    s.scope.Grows s₂.scope :=
  (h.acts fun _ hhost => Expr.evaluateOption_steady hhost g.value).grows.trans
    ((Eval.declare_grows _ v g.span).of_done hdeclare)

end Ends

/-! ## Moments -/

/-- Are the globals and functions not all declared yet? -/
def Task.IsEarly : Task → Prop
  | .program | .globals _ => True
  | _ => False

/-- The scope is lexical, and the root stands alone until everything is declared. -/
structure Moment.Lexical (m : Moment) : Prop where
  /-- The scope is lexical. -/
  scope : m.state.scope.Lexical
  /-- Globals and functions are declared in the root. -/
  early : m.task.IsEarly → m.state.scope.inner = []

section Moments

variable {p : Program} {sink : Sink} {m m' : Moment}

/-- **Every step of a run preserves the scope.** -/
theorem Program.Step.preserves (hstep : p.Step sink m m') (hm : m.Lexical) :
    m.state.scope.Preserves m'.state.scope := by
  cases hstep with
  | main hglobals hfunctions _ =>
    have hgrows := hglobals.globals_grow
    have hinner := hgrows.inner_eq_nil hm.scope (hm.early trivial)
    exact hgrows.preserves.trans
      (declareFunctions_done hinner hfunctions ▸ Scope.preserves_withCallees hinner _)
  | nextGlobal hvalue hdeclare => exact (hvalue.global_grows hdeclare).preserves
  | body _ harguments =>
    exact (Scope.preserves_enterCall _).trans
      ((declareArguments_grows _ _ _).of_done harguments).preserves
  | nextStmts hstmt => exact hstmt.stmt_preserves
  | stmtFinished hstmt => exact hstmt.stmt_preserves
  | thenBody h | elseBody h | whileBody h | armBody h _ =>
    exact h.expr_preserves.trans (Scope.preserves_child _)
  | again hcondition hbody =>
    exact hcondition.expr_preserves.trans
      (hbody.acts fun _ hhost => (Stmt.executeBlock_executes hhost _).grows.inChild).preserves
  | defaultBody => exact Scope.preserves_child _
  | assignedElement h | arms h | nextArms h _ | nextExprs h | undecided _ h _ | right _ h
  | exprFinished h => exact h.expr_preserves
  | callee harguments _ _ =>
    exact (harguments.acts fun _ hhost =>
      Expr.evaluateAll_acts Scope.Steady.refl Scope.Steady.trans hhost _).preserves
  | callFinished hcall => exact (hcall.acts fun _ hhost => hhost _ _).preserves
  | _ => exact .refl _

/-- The root stands alone until everything is declared. -/
theorem Program.Step.early (hstep : p.Step sink m m') (hm : m.Lexical) :
    m'.task.IsEarly → m'.state.scope.inner = [] := by
  cases hstep with
  | globals => exact fun _ => hm.early trivial
  | nextGlobal hvalue hdeclare =>
    exact fun _ => (hvalue.global_grows hdeclare).inner_eq_nil hm.scope (hm.early trivial)
  | _ => exact nofun

theorem Program.Step.lexical (hstep : p.Step sink m m') (hm : m.Lexical) : m'.Lexical :=
  ⟨(hstep.preserves hm hm.scope).1, hstep.early hm⟩

/-- So do any number of steps. -/
theorem Moment.Lexical.steps (hm : m.Lexical) (h : ReflTransGen (p.Step sink) m m') :
    m'.Lexical ∧ m.state.scope.Preserves m'.state.scope := by
  induction h with
  | refl => exact ⟨hm, .refl _⟩
  | tail _ hstep ih => exact ⟨hstep.lexical ih.1, ih.2.trans (hstep.preserves ih.1)⟩

theorem Moment.Lexical.start : Moment.start.Lexical := ⟨.initial, fun _ => rfl⟩

end Moments

/-- The scope belongs to a moment of a run. -/
def Program.Arises (p : Program) (scope : Scope) : Prop :=
  ∃ sink m, p.Reaches sink m ∧ m.state.scope = scope

/-- **Every scope that arises in a run is lexical.** -/
theorem Program.Arises.lexical {p : Program} {scope : Scope} (h : p.Arises scope) :
    scope.Lexical := by
  obtain ⟨sink, m, hreaches, rfl⟩ := h
  exact (Moment.Lexical.start.steps hreaches).1.scope

/-! ## Globals -/

/-- Between other globals, a global gets its initial value and is declared, which leads to a
state. -/
structure Program.Initializes (p : Program) (sink : Sink) (before : List Global) (g : Global)
    (after : List Global) (v : Value) (s : State) : Prop where
  /-- The place of the global in the program. -/
  split : p.globals = before ++ g :: after
  /-- After the globals before it, its initial value is evaluated, and it is declared. -/
  ends : ∃ s₀ s₁, p.Ends sink (fun host => declareGlobals host before) ⟨.initial, []⟩ () s₀ ∧
    p.Ends sink (fun host => Expr.evaluateOption host g.value) s₀ v s₁ ∧
    Eval.declare ⟨g.name, .any, g.isMutable⟩ v g.span s₁ = .done () s

/-- Globals are declared one after the other. -/
theorem declareGlobals_append (host : Host) (after : List Global) : ∀ before : List Global,
    declareGlobals host (before ++ after) =
      declareGlobals host before >>= fun _ => declareGlobals host after := by
  intro before
  induction before with
  | nil => rfl
  | cons g rest ih => simp only [List.cons_append, declareGlobals, bind_assoc, ih]

namespace Program.Initializes

variable {p : Program} {sink : Sink} {before after : List Global} {g : Global} {v : Value}
  {s : State}

/-- The moment after the declaration is lexical. -/
theorem lexical (h : p.Initializes sink before g after v s) (known : Scope)
    (waiting : List Waiting) : Moment.Lexical ⟨.globals after, s, known, waiting⟩ := by
  obtain ⟨s₀, s₁, hbefore, hvalue, hdeclare⟩ := h.ends
  have hgrows := hbefore.globals_grow.trans (hvalue.global_grows hdeclare)
  exact ⟨(hgrows .initial).1, fun _ => hgrows.inner_eq_nil .initial rfl⟩

/-- The global has just been declared, with its initial value. -/
theorem var? (h : p.Initializes sink before g after v s) :
    s.scope.root.var? g.name = some ⟨⟨g.name, .any, g.isMutable⟩, v⟩ := by
  obtain ⟨s₀, s₁, hbefore, hvalue, hdeclare⟩ := h.ends
  have hgrows := hbefore.globals_grow.trans
    (hvalue.acts fun _ hhost => Expr.evaluateOption_steady hhost g.value).grows
  have hinner := hgrows.inner_eq_nil .initial rfl
  rw [Eval.declare, Eval.bind_of_done Eval.scope_apply] at hdeclare
  cases hadd : s₁.scope.addVariable ⟨g.name, .any, g.isMutable⟩ v g.span with
  | error e => rw [hadd] at hdeclare; cases hdeclare
  | ok t =>
    obtain ⟨-, ht⟩ := Scope.addVariable_eq_ok.1 hadd
    rw [hadd] at hdeclare
    cases hdeclare
    obtain ⟨⟨inner, root⟩, writes⟩ := s₁
    subst hinner
    rw [ht]
    exact List.find?_cons_of_pos (beq_self_eq_true g.name)

/-- The state after all globals follows from the state after this one. -/
theorem rest (h : p.Initializes sink before g after v s) {t : State}
    (hall : p.Ends sink (fun host => declareGlobals host p.globals) ⟨.initial, []⟩ () t) :
    p.Ends sink (fun host => declareGlobals host after) s () t := by
  obtain ⟨s₀, s₁, hbefore, hvalue, hdeclare⟩ := h.ends
  have hbefore' := hbefore.eventually fun _ _ hhost => declareGlobals_approximates hhost before
  have hvalue' := hvalue.eventually fun _ _ hhost => Expr.evaluateOption_approximates hhost g.value
  have hall' := hall.eventually fun _ _ hhost => declareGlobals_approximates hhost p.globals
  obtain ⟨rounds, hbefore, hvalue, hall⟩ := (hbefore'.and (hvalue'.and hall')).exists
  refine ⟨rounds, ?_⟩
  rw [h.split, declareGlobals_append, Eval.bind_of_done hbefore, declareGlobals,
    Eval.bind_of_done hvalue, Eval.bind_of_done hdeclare] at hall
  exact hall

/-- **After its declaration an immutable global keeps its initial value**, while the globals after
it are evaluated. -/
theorem kept_by_globals (h : p.Initializes sink before g after v s)
    (himmutable : g.isMutable = false) {known : Scope} {waiting : List Waiting} {m : Moment}
    (hm : ReflTransGen (p.Step sink) ⟨.globals after, s, known, waiting⟩ m) :
    m.state.scope.root.var? g.name = some ⟨⟨g.name, .any, false⟩, v⟩ := by
  have hlexical := h.lexical known waiting
  have hpreserved := (hlexical.steps hm).2 hlexical.scope
  exact himmutable ▸ hpreserved.2 g.name _ h.var? himmutable

/-- **And from the call of `main` on.** -/
theorem kept_by_main (h : p.Initializes sink before g after v s) (himmutable : g.isMutable = false)
    {index : Nat} {arguments : List Value} {t : State} {known : Scope} {waiting : List Waiting}
    (hmain : p.Step sink .start ⟨.call index arguments, t, known, waiting⟩) {m : Moment}
    (hm : ReflTransGen (p.Step sink) ⟨.call index arguments, t, known, waiting⟩ m) :
    m.state.scope.root.var? g.name = some ⟨⟨g.name, .any, false⟩, v⟩ := by
  have hlexical := h.lexical known waiting
  have hstart := hmain.lexical .start
  have hcall : s.scope.Preserves t.scope := by
    rw [Moment.start] at hmain
    cases hmain with
    | main hglobals hfunctions _ =>
      have hgrows := (h.rest hglobals).globals_grow
      have hinner := hgrows.inner_eq_nil hlexical.scope (hlexical.early trivial)
      exact hgrows.preserves.trans
        (declareFunctions_done hinner hfunctions ▸ Scope.preserves_withCallees hinner _)
  have hpreserved := (hcall.trans (hstart.steps hm).2) hlexical.scope
  exact himmutable ▸ hpreserved.2 g.name _ h.var? himmutable

end Program.Initializes

/-! ## Programs -/

namespace Program

/-- **Block discipline.**  In every scope that arises in a run, a block that ends, by its last
statement or with the function's result, and likewise a statement, gains at most the variables that
it declares itself, in their order and all of them if the function goes on; everything else keeps
its names, its mutability and its functions, and immutable variables keep their values.  So an
immutable global has the value of its initializer, or the missing value, at every moment after its
declaration. -/
theorem block_discipline (p : Program) :
    (∀ scope, p.Arises scope → ∀ sink rounds writes,
      (∀ block flow t,
        Stmt.executeBlock (p.host sink rounds) block ⟨scope, writes⟩ = .done flow t →
          ∃ gained, gained <+: Stmt.blockDeclared block ∧
            (flow = none → gained = Stmt.blockDeclared block) ∧ scope.Grown gained t.scope) ∧
      ∀ stmt flow t, Stmt.execute (p.host sink rounds) stmt ⟨scope, writes⟩ = .done flow t →
        ∃ gained, gained <+: stmt.declared ∧ (flow = none → gained = stmt.declared) ∧
          scope.Grown gained t.scope) ∧
    ∀ sink before g after v s, p.Initializes sink before g after v s → g.isMutable = false →
      (g.value = none → v = .nil) ∧
      (∀ known waiting m, ReflTransGen (p.Step sink) ⟨.globals after, s, known, waiting⟩ m →
        m.state.scope.root.var? g.name = some ⟨⟨g.name, .any, false⟩, v⟩) ∧
      ∀ index t known waiting, p.Step sink .start ⟨.call index [], t, known, waiting⟩ →
        ∀ m, ReflTransGen (p.Step sink) ⟨.call index [], t, known, waiting⟩ m →
          m.state.scope.root.var? g.name = some ⟨⟨g.name, .any, false⟩, v⟩ := by
  refine ⟨fun scope hscope sink rounds writes => ⟨fun block flow t hend => ?_,
    fun stmt flow t hend => ?_⟩, fun sink before g after v s h himmutable => ⟨fun hnone => ?_,
    fun known waiting m hm => h.kept_by_globals himmutable hm,
    fun index t known waiting hmain m hm => h.kept_by_main himmutable hmain hm⟩⟩
  · exact ((Stmt.executeBlock_executes (p.host_steady sink rounds) block ⟨scope, writes⟩
      hscope.lexical).of_done hend).grown
  · exact ((Stmt.execute_executes (p.host_steady sink rounds) stmt ⟨scope, writes⟩
      hscope.lexical).of_done hend).grown
  · obtain ⟨s₀, s₁, -, ⟨rounds, hvalue⟩, -⟩ := h.ends
    rw [hnone] at hvalue
    cases hvalue
    rfl

/-- The global of the program below: an immutable limit of 2. -/
def limit : Global := Build.global "limit" false none (some (Build.literal (.integer 2)))

/-- A program that counts up to an immutable limit. -/
def counting : Program :=
  ⟨[limit],
    [Build.function "main" [] (some "Integer")
      [Build.declaration "i" none (some (Build.literal (.integer 0))),
        Build.whileLoop (Build.binary .lt (Build.var "i") (Build.var "limit"))
          [Build.assignment (Build.var "i")
            (Build.binary .add (Build.var "i") (Build.literal (.integer 1)))],
        Build.ret (Build.var "i")]]⟩

/-- The scope of the program that counts, when all is declared. -/
def countingScope : Scope :=
  ⟨[], ⟨[⟨⟨"limit", .any, false⟩, .integer 2⟩],
    ⟨⟨"main", [], .any⟩, .declared 0⟩ :: Scope.initial.root.callees⟩⟩

/-- The program that counts still has its limit when `main` has ended, and what `main` declares is
gone; a block in the frame of `main` gains the variable that it declares. -/
theorem block_discipline_counting :
    counting.Reaches .unbounded ⟨.finished, ⟨countingScope, []⟩, counting.known, []⟩ ∧
      countingScope.root.var? "limit" = some ⟨⟨"limit", .any, false⟩, .integer 2⟩ ∧
      counting.Arises countingScope.child ∧
      Stmt.executeBlock (counting.host .unbounded 3) [Build.declaration "i" none none]
          ⟨countingScope.child, []⟩ =
        .done none ⟨countingScope.child.withVariable ⟨runVariable "i", .nil⟩, []⟩ ∧
      countingScope.child.Grown [runVariable "i"]
        (countingScope.child.withVariable ⟨runVariable "i", .nil⟩) := by
  have hdiscipline := block_discipline counting
  have hlimit : counting.Initializes .unbounded [] limit [] (.integer 2)
      ⟨countingScope.withCallees Scope.initial.root.callees, []⟩ :=
    ⟨rfl, _, _, ⟨0, rfl⟩, ⟨0, rfl⟩, rfl⟩
  have hglobals : counting.Ends .unbounded (fun host => declareGlobals host counting.globals)
      ⟨.initial, []⟩ () ⟨countingScope.withCallees Scope.initial.root.callees, []⟩ := ⟨0, rfl⟩
  have hmain : counting.Step .unbounded .start
      ⟨.call 0 [], ⟨countingScope, []⟩, counting.known, []⟩ :=
    .main hglobals (by cbv) (by cbv)
  have hends : counting.Step .unbounded ⟨.call 0 [], ⟨countingScope, []⟩, counting.known, []⟩
      ⟨.finished, ⟨countingScope, []⟩, counting.known, []⟩ :=
    .callFinished (v := .integer 2) ⟨4, by cbv⟩
  have hbody : counting.Step .unbounded ⟨.call 0 [], ⟨countingScope, []⟩, counting.known, []⟩
      ⟨.block _, ⟨countingScope.child, []⟩, _, _⟩ := .body rfl rfl
  have hinside : counting.Arises countingScope.child :=
    ⟨_, _, (ReflTransGen.single hmain).tail hbody, rfl⟩
  have hblock : Stmt.executeBlock (counting.host .unbounded 3) [Build.declaration "i" none none]
      ⟨countingScope.child, []⟩ =
    .done none ⟨countingScope.child.withVariable ⟨runVariable "i", .nil⟩, []⟩ := by cbv
  obtain ⟨gained, -, hall, hgrown⟩ :=
    (hdiscipline.1 _ hinside .unbounded 3 []).1 _ none _ hblock
  rw [hall rfl] at hgrown
  have hlimit' := (hdiscipline.2 .unbounded [] limit [] (.integer 2) _ hlimit rfl).2.2 0 _ _ _
    hmain _ (.single hends)
  exact ⟨(ReflTransGen.single hmain).tail hends, hlimit', hinside, hblock, hgrown⟩

end Program

end ImpTree
