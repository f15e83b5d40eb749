import ImpTree.Proofs.Typing.Checker
import ImpTree.Proofs.Typing.Runs
import ImpTree.Tree.Build

/-!
# Types are preserved

At every moment of a run of a checked program, what there is to do is well typed where the names are
known that the annotations note, and every variable holds a value that fits what is noted for it.

* `Program.Typed.known_eq` — the annotations note what the checker knows.
* `Moment.Sound` — the invariant of a moment.
* `Moment.Sound.step`, `Moment.Sound.of_reaches` — it is preserved by a step, and by a whole run.
* `Program.types_preserved` — **types are preserved** in every run of a checked program.
-/

namespace ImpTree

variable {p : Program} {sink : Sink} {types : TypeNames} {noted missing : Prop}
  {early whole : Scope}

/-! ## What the annotations note -/

section Notes

variable {known after : Scope} {result : Ty}

/-- A slot that notes a binding adds a variable to what is known. -/
theorem Scope.noting_of_notes {slot : Slot VariableBinding} {binding : VariableBinding}
    (hn : noted) (h : slot.Notes noted binding) :
    known.noting slot = known.withVariable ⟨binding, .nil⟩ := by
  rw [h hn]
  rfl

/-- What is known after a statement is what it notes. -/
theorem Stmt.Typed.after_eq_noted (hn : noted) {stmt : Stmt}
    (h : Stmt.Typed types noted missing result known stmt after) : after = known.after stmt := by
  cases h with
  | declaration _ hadd hbinding =>
    rw [Scope.after, Scope.noting_of_notes hn hbinding]
    exact (Scope.addVariable_eq_ok.1 hadd).2
  | expression => rfl
  | assigned => rfl
  | assignedElement => rfl
  | ifElse => rfl
  | switch => rfl
  | whileLoop => rfl
  | ret => rfl

/-- The parameters that are declared are the ones that are noted. -/
theorem notingParameters_of_declareParameters {span : Span} : ∀ {names : List String}
    {tys : List Ty} {known inside : Scope}, declareParameters span names tys known = .ok inside →
    known.notingParameters names tys = inside := by
  intro names
  induction names with
  | nil =>
    intro tys known inside h
    rw [declareParameters.eq_def] at h
    cases h
    rw [Scope.notingParameters.eq_def]
  | cons name names ih =>
    intro tys known inside h
    cases tys with
    | nil =>
      cases h
      rfl
    | cons ty tys =>
      rw [declareParameters] at h
      obtain ⟨next, hadd, h⟩ := Except.bind_ok_inv h
      obtain ⟨-, rfl⟩ := Scope.addVariable_eq_ok.1 hadd
      exact ih h

/-- What is known inside a function is what its slot notes. -/
theorem FunctionDef.Typed.inside_eq (hn : noted) {f : FunctionDef} {binding : FunctionBinding}
    {inside : Scope} (h : f.Typed types noted missing whole binding) (hinner : whole.inner = [])
    (hroot : known.root = whole.root)
    (hparameters : declareParameters f.span f.parameters binding.parameterTypes whole.child =
      .ok inside) : f.inside known = inside := by
  rw [FunctionDef.inside, h.note hn, Scope.global_eq_of_root hinner hroot]
  exact notingParameters_of_declareParameters hparameters

/-- What is known after globals is what they note. -/
theorem GlobalsTyped.noted_eq (hn : noted) {globals : List Global}
    (h : GlobalsTyped types noted missing known globals after) :
    globals.foldl (fun (known : Scope) (g : Global) => known.noting g.binding) known = after := by
  induction h with
  | nil => rfl
  | cons _ hadd hbinding _ ih =>
    rw [List.foldl_cons, Scope.noting_of_notes hn hbinding, ← (Scope.addVariable_eq_ok.1 hadd).2]
    exact ih

/-- What is known after functions is what they note. -/
theorem FunctionsDeclared.noted_eq (hn : noted) {index : Nat} {fs : List FunctionDef}
    {bindings : List FunctionBinding}
    (h : FunctionsDeclared types noted known index fs bindings after) :
    known.notingFunctions index fs = after := by
  induction h with
  | nil => rfl
  | cons _ hadd hbinding _ ih =>
    rw [Scope.notingFunctions, hbinding hn]
    dsimp only
    rw [← (Scope.addFunction_eq_ok.1 hadd).2]
    exact ih

/-- The annotations of a program note what the checker knows of its globals and functions. -/
theorem Program.Typed.known_eq (hn : noted) (h : p.Typed types noted missing early whole) :
    p.known = whole := by
  obtain ⟨bindings, hdeclared, -⟩ := h.functions
  rw [Program.known, h.globals.noted_eq hn]
  exact hdeclared.noted_eq hn

end Notes

/-! ## The invariant -/

/-- What there is to do is well typed where the names of a scope are known. -/
def Task.Typed (p : Program) (types : TypeNames) (noted missing : Prop)
    (early whole known : Scope) : Task → Prop
  | .program => known = .initial
  | .globals rest => known.OnlyBuiltins ∧ GlobalsTyped types noted missing known rest early
  | .call index arguments =>
    known.root = whole.root ∧ ∃ f binding, p.functions[index]? = some f ∧
      f.Typed types noted missing whole binding ∧
      List.Forall₂ (fun ty v => Value.Fits missing ty v) binding.parameterTypes arguments
  | .block stmts =>
    known.inner ≠ [] ∧ known.Provides p types noted missing whole ∧
      ∃ result after, Stmt.BlockTyped types noted missing result known stmts after
  | .stmt statement =>
    known.inner ≠ [] ∧ known.Provides p types noted missing whole ∧
      ∃ result after, Stmt.Typed types noted missing result known statement after
  | .cases _ arms =>
    known.Provides p types noted missing whole ∧
      ∃ result ty, Stmt.CasesTyped types noted missing result known ty arms
  | .exprs es =>
    known.Provides p types noted missing whole ∧ ∃ tys, Expr.AllTyped noted missing known es tys
  | .expr e =>
    known.Provides p types noted missing whole ∧ ∃ ty, e.Typed noted missing known ty
  | .finished => True

/-- The variables in scope, and those of the functions that wait for a call to end, hold values that
fit what is noted for them. -/
structure Moment.Conforms (missing : Prop) (m : Moment) : Prop where
  /-- The variables in scope. -/
  scope : m.known.Matches missing m.state.scope
  /-- The variables of the functions that wait. -/
  waiting : ∀ w ∈ m.waiting, List.Forall₂ (Frame.Matches missing) w.known w.actual

/-- What there is to do at the moment is well typed, and the variables conform. -/
structure Moment.Sound (p : Program) (types : TypeNames) (noted missing : Prop)
    (early whole : Scope) (m : Moment) : Prop where
  /-- What there is to do is well typed. -/
  task : m.task.Typed p types noted missing early whole m.known
  /-- The variables conform. -/
  conforms : m.Conforms missing

/-! ## What ends -/

section Ends

variable {known after : Scope} {s s₁ : State} {v : Value}
  (hcalls : ∀ n, p.CallsSound sink types noted missing whole n)

include hcalls

/-- A well-typed expression that ends has a value that fits. -/
theorem Expr.Typed.ends {e : Expr} {ty : Ty} (htyped : e.Typed noted missing known ty)
    (hprovides : known.Provides p types noted missing whole)
    (hmatch : known.Matches missing s.scope)
    (hends : p.Ends sink (fun host => e.evaluate host) s v s₁) :
    v.Fits missing ty ∧ known.Matches missing s₁.scope := by
  obtain ⟨n, hn⟩ := hends
  exact (Expr.sound (hcalls n) e htyped hprovides hmatch).of_done hn

/-- Well-typed expressions that end have values that fit. -/
theorem Expr.AllTyped.ends {es : List Expr} {tys : List Ty} {vs : List Value}
    (htyped : Expr.AllTyped noted missing known es tys)
    (hprovides : known.Provides p types noted missing whole)
    (hmatch : known.Matches missing s.scope)
    (hends : p.Ends sink (fun host => Expr.evaluateAll host es) s vs s₁) :
    List.Forall₂ (fun ty v => Value.Fits missing ty v) tys vs ∧
      known.Matches missing s₁.scope := by
  obtain ⟨n, hn⟩ := hends
  exact (Expr.allSound (hcalls n) es htyped hprovides hmatch).of_done hn

/-- A well-typed statement that ends leaves a matching scope. -/
theorem Stmt.Typed.ends {stmt : Stmt} {result : Ty} {flow : Flow}
    (htyped : Stmt.Typed types noted missing result known stmt after)
    (hprovides : known.Provides p types noted missing whole)
    (hmatch : known.Matches missing s.scope)
    (hends : p.Ends sink (fun host => stmt.execute host) s flow s₁) :
    after.Matches missing s₁.scope := by
  obtain ⟨n, hn⟩ := hends
  exact ((Stmt.sound (hcalls n) stmt htyped hprovides hmatch).of_done hn).1

/-- A well-typed block that ends in a frame of its own leaves a matching scope. -/
theorem Stmt.BlockTyped.ends {body : List Stmt} {result : Ty} {flow : Flow}
    (htyped : Stmt.BlockTyped types noted missing result known.child body after)
    (hprovides : known.Provides p types noted missing whole)
    (hmatch : known.Matches missing s.scope)
    (hends : p.Ends sink (fun host => Eval.inChild (Stmt.executeBlock host body)) s flow s₁) :
    known.Matches missing s₁.scope := by
  obtain ⟨n, hn⟩ := hends
  have hb : (Stmt.executeBlock (p.host sink n) body s.enter).Meets _ _ :=
    Stmt.blockSound (hcalls n) body htyped (List.cons_ne_nil _ _) hprovides.child hmatch.child
  exact ((Stmt.childSound hb fun h => h).of_done hn).1

end Ends

/-! ## Steps -/

section Steps

variable {s : State} {known : Scope} {waiting : List Waiting} {m' : Moment}
  (hcalls : ∀ n, p.CallsSound sink types noted missing whole n)

include hcalls

/-- A step into an expression, past it, or into a function that it calls. -/
theorem Moment.Sound.step_expr {e : Expr}
    (hm : Moment.Sound p types noted missing early whole ⟨.expr e, s, known, waiting⟩)
    (hstep : p.Step sink ⟨.expr e, s, known, waiting⟩ m') :
    m'.Sound p types noted missing early whole := by
  obtain ⟨⟨hprovides, ty, htyped⟩, hscope, hwaiting⟩ := hm
  cases hstep with
  | inner =>
    cases htyped with
    | group _ hinner _ => exact ⟨⟨hprovides, _, hinner⟩, hscope, hwaiting⟩
  | left =>
    cases htyped with
    | binary hleft _ _ _ _ => exact ⟨⟨hprovides, _, hleft⟩, hscope, hwaiting⟩
  | undecided _ hends _ =>
    cases htyped with
    | binary hleft hright _ _ _ =>
      have hmatch := (hleft.ends hcalls hprovides hscope hends).2
      exact ⟨⟨hprovides, _, hright⟩, hmatch, hwaiting⟩
  | right _ hends =>
    cases htyped with
    | binary hleft hright _ _ _ =>
      have hmatch := (hleft.ends hcalls hprovides hscope hends).2
      exact ⟨⟨hprovides, _, hright⟩, hmatch, hwaiting⟩
  | offset =>
    cases htyped with
    | element hoffset _ _ _ _ => exact ⟨⟨hprovides, _, hoffset⟩, hscope, hwaiting⟩
  | arguments =>
    cases htyped with
    | call _ harguments _ _ _ => exact ⟨⟨hprovides, _, harguments⟩, hscope, hwaiting⟩
  | @callee _ arguments _ _ _ values c index _ s₁ _ _ hends hc htarget =>
    cases htyped with
    | call hfound harguments haccepts _ _ =>
      obtain ⟨hvalues, hmatch⟩ := harguments.ends hcalls hprovides hscope hends
      have hlength : values.length = arguments.length := by
        rw [harguments.length_eq, hvalues.length_eq]
      obtain ⟨c', hc', hcmatch⟩ := hmatch.callee?_eq_some hfound
      rw [hlength, hc'] at hc
      cases hc
      rcases hprovides.of_callee? hfound with ⟨b, rfl⟩ | ⟨hroot, i, f, hi, hf, hftyped⟩
      · rw [hcmatch.target] at htarget
        cases htarget
      · rw [hcmatch.target, hi] at htarget
        cases htarget
        exact ⟨⟨hroot, f, _, hf, hftyped, fits_parameters haccepts hvalues⟩, hmatch, hwaiting⟩
  | elements =>
    cases htyped with
    | list helements _ _ _ => exact ⟨⟨hprovides, _, helements⟩, hscope, hwaiting⟩
  | exprFinished hends =>
    exact ⟨trivial, (htyped.ends hcalls hprovides hscope hends).2, hwaiting⟩

/-- A step into one of several expressions. -/
theorem Moment.Sound.step_exprs {es : List Expr}
    (hm : Moment.Sound p types noted missing early whole ⟨.exprs es, s, known, waiting⟩)
    (hstep : p.Step sink ⟨.exprs es, s, known, waiting⟩ m') :
    m'.Sound p types noted missing early whole := by
  obtain ⟨⟨hprovides, tys, htyped⟩, hscope, hwaiting⟩ := hm
  cases hstep with
  | firstExpr =>
    cases htyped with
    | cons he _ => exact ⟨⟨hprovides, _, he⟩, hscope, hwaiting⟩
  | nextExprs hends =>
    cases htyped with
    | cons he hrest =>
      have hmatch := (he.ends hcalls hprovides hscope hends).2
      exact ⟨⟨hprovides, _, hrest⟩, hmatch, hwaiting⟩

/-- A step into the arms of a switch. -/
theorem Moment.Sound.step_cases {v : Value} {arms : List Case}
    (hm : Moment.Sound p types noted missing early whole ⟨.cases v arms, s, known, waiting⟩)
    (hstep : p.Step sink ⟨.cases v arms, s, known, waiting⟩ m') :
    m'.Sound p types noted missing early whole := by
  obtain ⟨⟨hprovides, result, ty, htyped⟩, hscope, hwaiting⟩ := hm
  cases hstep with
  | armValue =>
    cases htyped with
    | cons hvalue _ _ => exact ⟨⟨hprovides, _, hvalue⟩, hscope, hwaiting⟩
  | armBody hends _ =>
    cases htyped with
    | cons hvalue hbody _ =>
      have hmatch := (hvalue.ends hcalls hprovides hscope hends).2
      exact ⟨⟨List.cons_ne_nil _ _, hprovides.child, result, _, hbody⟩, hmatch.child, hwaiting⟩
  | nextArms hends _ =>
    cases htyped with
    | cons hvalue _ hrest =>
      have hmatch := (hvalue.ends hcalls hprovides hscope hends).2
      exact ⟨⟨hprovides, result, ty, hrest⟩, hmatch, hwaiting⟩
  | defaultBody =>
    cases htyped with
    | last hbody =>
      exact ⟨⟨List.cons_ne_nil _ _, hprovides.child, result, _, hbody⟩, hscope.child, hwaiting⟩

/-- A step into a statement or past it. -/
theorem Moment.Sound.step_stmt (hn : noted) {stmt : Stmt}
    (hm : Moment.Sound p types noted missing early whole ⟨.stmt stmt, s, known, waiting⟩)
    (hstep : p.Step sink ⟨.stmt stmt, s, known, waiting⟩ m') :
    m'.Sound p types noted missing early whole := by
  obtain ⟨⟨hinner, hprovides, result, after, htyped⟩, hscope, hwaiting⟩ := hm
  cases hstep with
  | expression =>
    cases htyped with
    | expression _ hexpr => exact ⟨⟨hprovides, _, hexpr⟩, hscope, hwaiting⟩
  | initial =>
    cases htyped with
    | declaration hdeclares _ _ =>
      cases hdeclares with
      | both _ hvalue _ => exact ⟨⟨hprovides, _, hvalue⟩, hscope, hwaiting⟩
      | inferred hvalue => exact ⟨⟨hprovides, _, hvalue⟩, hscope, hwaiting⟩
  | assigned =>
    cases htyped with
    | assigned _ _ hvalue _ _ => exact ⟨⟨hprovides, _, hvalue⟩, hscope, hwaiting⟩
  | assignedOffset =>
    cases htyped with
    | assignedElement _ hoffset _ _ _ _ _ => exact ⟨⟨hprovides, _, hoffset⟩, hscope, hwaiting⟩
  | assignedElement hends =>
    cases htyped with
    | assignedElement _ hoffset _ _ hvalue _ _ =>
      have hmatch := (hoffset.ends hcalls hprovides hscope hends).2
      exact ⟨⟨hprovides, _, hvalue⟩, hmatch, hwaiting⟩
  | ifCondition =>
    cases htyped with
    | ifElse hcondition _ _ => exact ⟨⟨hprovides, _, hcondition⟩, hscope, hwaiting⟩
  | thenBody hends =>
    cases htyped with
    | ifElse hcondition hthen _ =>
      have hmatch := (hcondition.ends hcalls hprovides hscope hends).2
      exact ⟨⟨List.cons_ne_nil _ _, hprovides.child, result, _, hthen⟩, hmatch.child, hwaiting⟩
  | elseBody hends =>
    cases htyped with
    | ifElse hcondition _ helse =>
      have hmatch := (hcondition.ends hcalls hprovides hscope hends).2
      exact ⟨⟨List.cons_ne_nil _ _, hprovides.child, result, _, helse⟩, hmatch.child, hwaiting⟩
  | switchCondition =>
    cases htyped with
    | switch hcondition _ => exact ⟨⟨hprovides, _, hcondition⟩, hscope, hwaiting⟩
  | arms hends =>
    cases htyped with
    | switch hcondition hcases =>
      have hmatch := (hcondition.ends hcalls hprovides hscope hends).2
      exact ⟨⟨hprovides, result, _, hcases⟩, hmatch, hwaiting⟩
  | whileCondition =>
    cases htyped with
    | whileLoop hcondition _ => exact ⟨⟨hprovides, _, hcondition⟩, hscope, hwaiting⟩
  | whileBody hends =>
    cases htyped with
    | whileLoop hcondition hbody =>
      have hmatch := (hcondition.ends hcalls hprovides hscope hends).2
      exact ⟨⟨List.cons_ne_nil _ _, hprovides.child, result, _, hbody⟩, hmatch.child, hwaiting⟩
  | again hends hround =>
    cases htyped with
    | whileLoop hcondition hbody =>
      have hmatch := (hcondition.ends hcalls hprovides hscope hends).2
      have hmatch₁ := hbody.ends hcalls hprovides hmatch hround
      exact ⟨⟨hinner, hprovides, result, _, .whileLoop hcondition hbody⟩, hmatch₁, hwaiting⟩
  | result =>
    cases htyped with
    | ret hvalue => exact ⟨⟨hprovides, _, hvalue⟩, hscope, hwaiting⟩
  | stmtFinished hends =>
    have hmatch := htyped.ends hcalls hprovides hscope hends
    rw [htyped.after_eq_noted hn] at hmatch
    exact ⟨trivial, hmatch, hwaiting⟩

/-- A step into a block or past its first statement. -/
theorem Moment.Sound.step_block (hn : noted) {stmts : List Stmt}
    (hm : Moment.Sound p types noted missing early whole ⟨.block stmts, s, known, waiting⟩)
    (hstep : p.Step sink ⟨.block stmts, s, known, waiting⟩ m') :
    m'.Sound p types noted missing early whole := by
  obtain ⟨⟨hinner, hprovides, result, after, htyped⟩, hscope, hwaiting⟩ := hm
  cases hstep with
  | firstStmt =>
    cases htyped with
    | cons hstmt _ => exact ⟨⟨hinner, hprovides, result, _, hstmt⟩, hscope, hwaiting⟩
  | nextStmts hends =>
    cases htyped with
    | cons hstmt hrest =>
      obtain ⟨hinner₁, -, hprovides₁⟩ := hstmt.frame hinner hprovides
      have hmatch₁ := hstmt.ends hcalls hprovides hscope hends
      rw [hstmt.after_eq_noted hn] at hinner₁ hprovides₁ hmatch₁ hrest
      exact ⟨⟨hinner₁, hprovides₁, result, after, hrest⟩, hmatch₁, hwaiting⟩

/-- A step into a function that is called, or back from it. -/
theorem Moment.Sound.step_call (hn : noted) (hinner : whole.inner = [])
    (hwhole : whole.Provides p types noted missing whole) {index : Nat} {arguments : List Value}
    (hm : Moment.Sound p types noted missing early whole ⟨.call index arguments, s, known, waiting⟩)
    (hstep : p.Step sink ⟨.call index arguments, s, known, waiting⟩ m') :
    m'.Sound p types noted missing early whole := by
  obtain ⟨⟨hroot, f, binding, hf, hftyped, hvalues⟩, hscope, hwaiting⟩ := hm
  cases hstep with
  | body hf' harguments =>
    rw [hf] at hf'
    cases hf'
    obtain ⟨inside, after, hparameters, hbody⟩ := hftyped.body
    have hchild : whole.child.Matches missing s.enterCall.scope := by
      rw [← Scope.global_eq_of_root hinner hroot]
      exact hscope.global.child
    obtain ⟨s₁, hs₁, hmatch₁⟩ := hchild.declareArguments f.span hparameters hvalues
    rw [harguments] at hs₁
    cases hs₁
    obtain ⟨hinner₁, -, hprovides₁⟩ :=
      declareParameters_frame hparameters (List.cons_ne_nil _ _) hwhole.child
    rw [← hftyped.inside_eq hn hinner hroot hparameters] at hinner₁ hprovides₁ hmatch₁ hbody
    refine ⟨⟨hinner₁, hprovides₁, _, after, hbody⟩, hmatch₁, ?_⟩
    intro w hw
    rcases List.mem_cons.1 hw with rfl | hw
    · exact hscope.inner
    · exact hwaiting w hw
  | callFinished hends =>
    obtain ⟨n, hends⟩ := hends
    have hmatch := ((hcalls n hf hftyped hroot hscope hvalues).of_done hends).2
    exact ⟨trivial, hmatch, hwaiting⟩

/-- A step into a global or past it. -/
theorem Moment.Sound.step_globals (hn : noted) {globals : List Global}
    (hm : Moment.Sound p types noted missing early whole ⟨.globals globals, s, known, waiting⟩)
    (hstep : p.Step sink ⟨.globals globals, s, known, waiting⟩ m') :
    m'.Sound p types noted missing early whole := by
  obtain ⟨⟨hbuiltins, htyped⟩, hscope, hwaiting⟩ := hm
  cases hstep with
  | globalValue hvalue =>
    cases htyped with
    | cons hdeclares _ _ _ =>
      rw [hvalue] at hdeclares
      generalize Global.typeName _ = typeName at hdeclares
      cases hdeclares with
      | both _ he _ => exact ⟨⟨hbuiltins.provides, _, he⟩, hscope, hwaiting⟩
      | inferred he => exact ⟨⟨hbuiltins.provides, _, he⟩, hscope, hwaiting⟩
  | @nextGlobal g rest v _ s₁ s₂ _ _ hends hdeclare =>
    cases htyped with
    | cons hdeclares hadd hbinding hrest =>
      obtain ⟨n, hends⟩ := hends
      have hv := hdeclares.sound (hcalls n) hbuiltins.provides hscope
        (.globals (g :: rest)) fun e he _ _ => ⟨_, _, .globalValue he⟩
      obtain ⟨hfits, hmatch₁⟩ := hv.of_done hends
      obtain ⟨s₃, hs₃, hmatch₃⟩ :=
        hmatch₁.declare hadd ⟨g.name, .any, g.isMutable⟩ g.span rfl rfl hfits
      rw [hdeclare] at hs₃
      cases hs₃
      obtain ⟨-, hnext⟩ := Scope.addVariable_eq_ok.1 hadd
      have hnoted : known.noting g.binding = _ := Scope.noting_of_notes hn hbinding
      rw [← hnoted] at hnext
      subst hnext
      exact ⟨⟨hnoted ▸ hbuiltins.withVariable _, hrest⟩, hmatch₃, hwaiting⟩

/-- A step into the globals, or into `main` after everything is declared. -/
theorem Moment.Sound.step_program (hn : noted) (h : p.Typed types noted missing early whole)
    (hm : Moment.Sound p types noted missing early whole ⟨.program, s, known, waiting⟩)
    (hstep : p.Step sink ⟨.program, s, known, waiting⟩ m') :
    m'.Sound p types noted missing early whole := by
  obtain ⟨htask, hscope, hwaiting⟩ := hm
  cases htask
  cases hstep with
  | globals => exact ⟨⟨Scope.OnlyBuiltins.initial, h.globals⟩, hscope, hwaiting⟩
  | main hglobals hfunctions hmain =>
    obtain ⟨n, hglobals⟩ := hglobals
    have hmatch₁ :=
      (h.globals.sound (hcalls n) Scope.OnlyBuiltins.initial hscope).of_done hglobals
    obtain ⟨bindings, hdeclared, -⟩ := h.functions
    obtain ⟨s₂, hs₂, hmatch₂⟩ := hdeclared.sound hmatch₁
    rw [hfunctions] at hs₂
    cases hs₂
    obtain ⟨index, f, binding, hindex, hf, hftyped, hparameters, -⟩ := h.main_found hmatch₂
    rw [hmain] at hindex
    cases hindex
    rw [← h.known_eq hn] at hmatch₂
    refine ⟨⟨?_, f, binding, hf, hftyped, hparameters ▸ .nil⟩, hmatch₂, hwaiting⟩
    rw [h.known_eq hn]

end Steps

/-- **A step preserves the invariant.** -/
theorem Moment.Sound.step (hn : noted) (h : p.Typed types noted missing early whole) {m m' : Moment}
    (hm : m.Sound p types noted missing early whole) (hstep : p.Step sink m m') :
    m'.Sound p types noted missing early whole := by
  obtain ⟨hinner, hwhole⟩ := h.provides
  have hcalls : ∀ n, p.CallsSound sink types noted missing whole n :=
    Program.callsSound hinner hwhole
  obtain ⟨task, s, known, waiting⟩ := m
  cases task with
  | program => exact hm.step_program hcalls hn h hstep
  | globals rest => exact hm.step_globals hcalls hn hstep
  | call index arguments => exact hm.step_call hcalls hn hinner hwhole hstep
  | block stmts => exact hm.step_block hcalls hn hstep
  | stmt stmt => exact hm.step_stmt hcalls hn hstep
  | cases condition arms => exact hm.step_cases hcalls hstep
  | exprs es => exact hm.step_exprs hcalls hstep
  | expr e => exact hm.step_expr hcalls hstep
  | finished => cases hstep

/-- **A run preserves the invariant.**  Every moment of the run of a well-typed program is sound. -/
theorem Moment.Sound.of_reaches (hn : noted) (h : p.Typed types noted missing early whole)
    {m : Moment} (hm : p.Reaches sink m) : m.Sound p types noted missing early whole := by
  induction hm with
  | refl => exact ⟨rfl, .initial, fun _ hw => absurd hw List.not_mem_nil⟩
  | tail _ hstep ih => exact ih.step hn h hstep

/-! ## Checked programs -/

/-- An expression that the checker has annotated has a value that its annotation says, if it has
one. -/
theorem Moment.Sound.expr_fits (hn : noted) (h : p.Typed types noted missing early whole)
    {m : Moment} (hm : m.Sound p types noted missing early whole) {e : Expr}
    (he : m.task = .expr e) :
    ∃ ty, e.ty = some ty ∧ ∀ v s', p.Ends sink (fun host => e.evaluate host) m.state v s' →
      v.Fits missing ty := by
  obtain ⟨hinner, hwhole⟩ := h.provides
  have htask := hm.task
  rw [he] at htask
  obtain ⟨hprovides, ty, htyped⟩ := htask
  exact ⟨ty, htyped.ty_eq hn, fun v s' hends =>
    (htyped.ends (Program.callsSound hinner hwhole) hprovides hm.conforms.scope hends).1⟩

/-- **Types are preserved.**  In every run of a program that the checker accepts, with no slot
filled before: at every moment, every variable holds `null` or a value of the type that is noted for
it; every expression has a type noted, and its value, if it has one, is `null` or a value of that
type; and `main` returns an integer or `null`, if it returns. -/
theorem Program.types_preserved {types : TypeNames} {p : Program} (hfresh : p.IsFresh)
    (haccepted : (p.analyze types).verdict = .ok ()) (sink : Sink) :
    (∀ m, (p.analyze types).node.Reaches sink m →
      m.Conforms True ∧
        ∀ e, m.task = .expr e → ∃ ty, e.ty = some ty ∧
          ∀ v s', (p.analyze types).node.Ends sink (fun host => e.evaluate host) m.state v s' →
            v = .nil ∨ v.Inhabits True ty) ∧
      ∀ rounds v writes, (p.analyze types).node.runWithin rounds sink = some ⟨.ok v, writes⟩ →
        v = .nil ∨ ∃ n, v = .integer n := by
  have hrules : ∃ early whole, (p.analyze types).node.Typed types True True early whole :=
    Program.typed_of_analyze haccepted fun _ => hfresh
  obtain ⟨early, whole, htyped⟩ := hrules
  refine ⟨fun m hm => ?_, fun rounds v writes hrun => ?_⟩
  · have hsound := Moment.Sound.of_reaches trivial htyped hm
    refine ⟨hsound.conforms, ?_⟩
    intro e he
    obtain ⟨ty, hty, hfits⟩ := hsound.expr_fits trivial htyped he
    exact ⟨ty, hty, fun v s' hends => (hfits v s' hends).imp_left And.right⟩
  · exact (htyped.result_fits hrun).imp_left And.right

/-- A program that adds up 1, 2 and 3 in a global, one call of a function at a time. -/
def Program.summing : Program :=
  ⟨[Build.global "total" true (some "Integer") (some (Build.literal (.integer 0)))],
    [Build.function "add" [("n", "Integer")] (some "Integer")
      [Build.assignment (Build.var "total") (Build.binary .add (Build.var "total") (Build.var "n")),
        Build.ret (Build.var "total")],
    Build.function "main" [] (some "Integer")
      [Build.declaration "i" none (some (Build.literal (.integer 0))),
        Build.whileLoop (Build.binary .lt (Build.var "i") (Build.literal (.integer 3)))
          [Build.assignment (Build.var "i")
              (Build.binary .add (Build.var "i") (Build.literal (.integer 1))),
            Build.expression (Build.call "add" [Build.var "i"])],
        Build.ret (Build.var "total")]]⟩

/-- The program that adds up 1, 2 and 3 is accepted, and its run preserves types to the end. -/
theorem Program.types_preserved_summing :
    Program.summing.IsFresh ∧ (Program.summing.analyze .builtin).verdict = .ok () ∧
      (∀ m, (Program.summing.analyze .builtin).node.Reaches .unbounded m → m.Conforms True) ∧
      (Program.summing.analyze .builtin).node.runWithin 6 .unbounded =
        some ⟨.ok (.integer 6), []⟩ := by
  have hfresh : Program.summing.IsFresh := rfl
  have haccepted : (Program.summing.analyze .builtin).verdict = .ok () := by cbv
  have hpreserved := Program.types_preserved hfresh haccepted .unbounded
  exact ⟨hfresh, haccepted, fun m hm => (hpreserved.1 m hm).1, by cbv⟩

end ImpTree
