import ImpTree.Proofs.Typing.Soundness

/-!
# Soundness for programs

Calls, globals and functions of a well-typed program, and its whole runs.  A call is taken by the
number of rounds that are left: the body of a function runs with one round less than the call.

* `Program.callsSound` — **calls are sound** for any number of rounds.
* `GlobalsTyped.sound`, `FunctionsDeclared.sound` — the declarations of a program.
* `Program.Typed.sound` — **runs are sound**: a well-typed program returns a value that fits
  `Integer`, or fails with an error that is excused.
-/

namespace ImpTree

variable {p : Program} {sink : Sink} {types : TypeNames} {noted missing : Prop}

/-! ## Parameters -/

/-- Arguments that fit their parameters can be declared. -/
theorem Scope.Matches.declareArguments {span : Span} (place : Span) : ∀ {names : List String}
    {tys : List Ty} {values : List Value} {known inside : Scope} {s : State},
    known.Matches missing s.scope → declareParameters span names tys known = .ok inside →
    List.Forall₂ (fun ty v => Value.Fits missing ty v) tys values →
    ∃ s', ImpTree.declareArguments place names values s = .done () s' ∧
      inside.Matches missing s'.scope := by
  intro names
  induction names with
  | nil =>
    intro tys values known inside s hmatch hparameters _
    rw [declareParameters.eq_def] at hparameters
    cases hparameters
    exact ⟨s, rfl, hmatch⟩
  | cons name names ih =>
    intro tys values known inside s hmatch hparameters hvalues
    cases hvalues with
    | nil =>
      cases hparameters
      exact ⟨s, rfl, hmatch⟩
    | @cons ty v tys values hfits hrest =>
      rw [declareParameters] at hparameters
      obtain ⟨next, hadd, hparameters⟩ := Except.bind_ok_inv hparameters
      obtain ⟨s₁, hs₁, hmatch₁⟩ := hmatch.declare hadd (runVariable name) place rfl rfl hfits
      obtain ⟨s₂, hs₂, hmatch₂⟩ := ih hmatch₁ hparameters hrest
      refine ⟨s₂, ?_, hmatch₂⟩
      rw [ImpTree.declareArguments, Eval.bind_of_done hs₁]
      exact hs₂

/-- What parameters inside the root leave as it was. -/
theorem declareParameters_frame {whole : Scope} {span : Span} : ∀ {names : List String}
    {tys : List Ty} {known inside : Scope},
    declareParameters span names tys known = .ok inside → known.inner ≠ [] →
    known.Provides p types noted missing whole →
    inside.inner ≠ [] ∧ inside.leave = known.leave ∧
      inside.Provides p types noted missing whole := by
  intro names
  induction names with
  | nil =>
    intro tys known inside h hinner hprovides
    rw [declareParameters.eq_def] at h
    cases h
    exact ⟨hinner, rfl, hprovides⟩
  | cons name names ih =>
    intro tys known inside h hinner hprovides
    cases tys with
    | nil =>
      cases h
      exact ⟨hinner, rfl, hprovides⟩
    | cons ty tys =>
      rw [declareParameters] at h
      obtain ⟨next, hadd, h⟩ := Except.bind_ok_inv h
      obtain ⟨-, rfl⟩ := Scope.addVariable_eq_ok.1 hadd
      have hrest := ih h (Scope.inner_withVariable_ne_nil.2 hinner)
        (hprovides.withVariable hinner _)
      rwa [Scope.leave_withVariable hinner] at hrest

/-! ## Calls -/

/-- The result of a function's body, or the missing value, fits the type of the function. -/
theorem FunctionDef.Typed.result_fits {whole : Scope} {f : FunctionDef} {binding : FunctionBinding}
    {flow : Flow} (h : f.Typed types noted missing whole binding)
    (hflow : Flow.Fits missing binding.returnType (Stmt.blockReturns f.body) flow) :
    Value.Fits missing binding.returnType (flow.getD .nil) := by
  cases flow with
  | some v => exact hflow
  | none =>
    have hreturns : Stmt.blockReturns f.body = false := hflow
    exact h.returns.resolve_right fun htrue => Bool.false_ne_true (hreturns.symm.trans htrue)

/-- The root alone is all of a scope that has no inner frame. -/
theorem Scope.global_eq_of_root {known whole : Scope} (hinner : whole.inner = [])
    (hroot : known.root = whole.root) : known.global = whole := by
  obtain ⟨inner, root⟩ := whole
  cases hinner
  cases hroot
  rfl

/-- **Calls are sound**, however many rounds they are given. -/
theorem Program.callsSound {whole : Scope} (hinner : whole.inner = [])
    (hprovides : whole.Provides p types noted missing whole) :
    ∀ n, p.CallsSound sink types noted missing whole n := by
  intro n
  induction n with
  | zero =>
    intro index f binding known arguments s _ _ _ _ _
    trivial
  | succ n ih =>
    intro index f binding known arguments s hf hftyped hroot hmatch hvalues
    have happly : (p.host sink (n + 1)).call index arguments =
        f.apply (p.host sink n) arguments := by
      show callWithin sink p.functions (n + 1) index arguments = _
      rw [callWithin, hf]
      rfl
    have hglobal : known.global = whole := Scope.global_eq_of_root hinner hroot
    have hchild : whole.child.Matches missing s.enterCall.scope := by
      rw [← hglobal]
      exact hmatch.global.child
    obtain ⟨inside, after, hparameters, hbody⟩ := hftyped.body
    obtain ⟨s₁, hs₁, hmatch₁⟩ := hchild.declareArguments f.span hparameters hvalues
    obtain ⟨hinner₁, hleave, hprovides₁⟩ :=
      declareParameters_frame hparameters (List.cons_ne_nil _ _) hprovides.child
    rw [happly]
    refine Outcome.Meets.inCall ?_
    show ((ImpTree.declareArguments f.span f.parameters arguments >>= fun _ => _) s.enterCall).Meets
      _ _
    rw [Eval.bind_of_done hs₁]
    have hb := (Stmt.blockSound ih f.body hbody hinner₁ hprovides₁ hmatch₁).within
      (.call index arguments) s fun _ _ => ⟨_, _, .body hf hs₁⟩
    refine hb.bind fun flow s₂ _ ⟨hmatch₂, hfits⟩ => ⟨hftyped.result_fits hfits, ?_⟩
    rw [hleave] at hmatch₂
    exact ⟨hmatch.inner, hroot ▸ hmatch₂.root⟩

/-! ## Globals -/

/-- Only built-in functions are known. -/
def Scope.OnlyBuiltins (known : Scope) : Prop :=
  ∀ frame ∈ known.frames, ∀ c ∈ frame.callees, ∃ b : Builtin, c = ⟨b.binding, .builtin b⟩

namespace Scope.OnlyBuiltins

variable {known : Scope}

theorem initial : Scope.initial.OnlyBuiltins := by
  intro frame hframe c hc
  obtain rfl := List.mem_singleton.1 hframe
  obtain ⟨b, -, rfl⟩ := List.mem_map.1 hc
  exact ⟨b, rfl⟩

theorem provides {whole : Scope} (h : known.OnlyBuiltins) :
    known.Provides p types noted missing whole :=
  fun frame hframe c hc => .inl (h frame hframe c hc)

/-- A variable brings no function. -/
theorem withVariable (h : known.OnlyBuiltins) (v : Variable) :
    (known.withVariable v).OnlyBuiltins := by
  intro frame hframe c hc
  obtain ⟨old, hold, hcallees⟩ := exists_frame_of_withVariable hframe
  rw [← hcallees] at hc
  exact h old hold c hc

end Scope.OnlyBuiltins

/-- Globals are declared in the root and bring no function. -/
theorem GlobalsTyped.frame {known after : Scope} {globals : List Global}
    (h : GlobalsTyped types noted missing known globals after) (hinner : known.inner = [])
    (hbuiltins : known.OnlyBuiltins) : after.inner = [] ∧ after.OnlyBuiltins := by
  induction h with
  | nil => exact ⟨hinner, hbuiltins⟩
  | cons _ hadd _ _ ih =>
    obtain ⟨-, rfl⟩ := Scope.addVariable_eq_ok.1 hadd
    exact ih (Scope.inner_withVariable_eq_nil.2 hinner) (hbuiltins.withVariable _)

/-- Globals are declared with values that fit. -/
theorem GlobalsTyped.sound {whole : Scope} {n : Nat}
    (hcalls : p.CallsSound sink types noted missing whole n) {known after : Scope}
    {globals : List Global} (h : GlobalsTyped types noted missing known globals after) :
    ∀ {s : State}, known.OnlyBuiltins → known.Matches missing s.scope →
      (declareGlobals (p.host sink n) globals s).Meets (fun _ s' => after.Matches missing s'.scope)
        (p.Excused sink noted missing (.globals globals) s) := by
  induction h with
  | nil => exact fun _ hmatch => hmatch
  | @cons known next after g rest ty hty hadd _ _ ih =>
    intro s hbuiltins hmatch
    have hv := hty.sound hcalls hbuiltins.provides hmatch (.globals (g :: rest))
      fun e he _ _ => ⟨_, _, .globalValue he⟩
    rw [declareGlobals]
    refine hv.bind ?_
    intro v s₁ hends hv₁
    obtain ⟨hfits, hmatch₁⟩ := hv₁
    obtain ⟨s₂, hs₂, hmatch₂⟩ :=
      hmatch₁.declare hadd ⟨g.name, .any, g.isMutable⟩ g.span rfl rfl hfits
    rw [Eval.bind_of_done hs₂]
    obtain ⟨-, rfl⟩ := Scope.addVariable_eq_ok.1 hadd
    exact (ih (hbuiltins.withVariable _) hmatch₂).within _ _
      fun _ _ => ⟨_, _, .nextGlobal ⟨n, hends⟩ hs₂⟩

/-! ## Functions -/

section Functions

variable {known after : Scope} {index : Nat} {fs : List FunctionDef}
  {bindings : List FunctionBinding}

/-- Functions that the checker can declare are declared in the run. -/
theorem FunctionsDeclared.sound (h : FunctionsDeclared types noted known index fs bindings after) :
    ∀ {s : State}, known.Matches missing s.scope →
      ∃ s', declareFunctions index fs s = .done () s' ∧ after.Matches missing s'.scope := by
  induction h with
  | nil => exact fun hmatch => ⟨_, rfl, hmatch⟩
  | @cons known next after index f rest binding bindings hsignature hadd _ _ ih =>
    intro s hmatch
    obtain ⟨hname, harity, -⟩ := FunctionDef.signature_eq_ok hsignature
    have hcallee : Callee.Matches ⟨binding, .declared index⟩ ⟨f.runBinding, .declared index⟩ :=
      ⟨hname.symm, (List.length_map _).trans harity.symm, rfl⟩
    obtain ⟨scope, hscope, hmatch₁⟩ := hmatch.addFunction hadd hcallee f.span
    obtain ⟨s', hs', hmatch'⟩ := ih (s := { s with scope }) hmatch₁
    refine ⟨s', ?_, hmatch'⟩
    rw [declareFunctions, Eval.bind_of_done Eval.scope_apply, hscope]
    exact hs'

/-- Functions are declared in the root, each at its position and under its signature. -/
theorem FunctionsDeclared.frame (h : FunctionsDeclared types noted known index fs bindings after)
    (hinner : known.inner = []) :
    after.inner = [] ∧ ∀ c ∈ after.root.callees, c ∈ known.root.callees ∨
      ∃ i, c.target = .declared (index + i) ∧ bindings[i]? = some c.binding := by
  induction h with
  | nil => exact ⟨hinner, fun c hc => .inl hc⟩
  | @cons known next after index f rest binding bindings _ hadd _ _ ih =>
    obtain ⟨-, rfl⟩ := Scope.addFunction_eq_ok.1 hadd
    obtain ⟨hafter, hcallees⟩ := ih (Scope.inner_withCallee_eq_nil.2 hinner)
    refine ⟨hafter, ?_⟩
    intro c hc
    rcases hcallees c hc with hc | ⟨i, htarget, hbinding⟩
    · rw [Scope.root_withCallee hinner] at hc
      rcases List.mem_cons.1 hc with rfl | hc
      · exact .inr ⟨0, rfl, rfl⟩
      · exact .inl hc
    · exact .inr ⟨i + 1, by rw [htarget, Nat.add_right_comm, Nat.add_assoc], hbinding⟩

/-- A function that is found before functions are declared is found afterwards. -/
theorem FunctionsDeclared.callee?_of_known
    (h : FunctionsDeclared types noted known index fs bindings after) (hinner : known.inner = [])
    {name : String} {arity : Nat} {c : Callee} (hc : known.callee? name arity = some c) :
    after.callee? name arity = some c := by
  induction h with
  | nil => exact hc
  | cons _ hadd _ _ ih =>
    obtain ⟨hnew, rfl⟩ := Scope.addFunction_eq_ok.1 hadd
    exact ih (Scope.inner_withCallee_eq_nil.2 hinner) (Scope.callee?_withCallee hinner hnew hc)

/-- Every function that is declared is found under its signature, at its position. -/
theorem FunctionsDeclared.callee?_of_getElem?
    (h : FunctionsDeclared types noted known index fs bindings after) (hinner : known.inner = []) :
    ∀ {i : Nat} {f : FunctionDef}, fs[i]? = some f → ∃ binding, bindings[i]? = some binding ∧
      f.signature types = .ok binding ∧
      after.callee? binding.name binding.arity = some ⟨binding, .declared (index + i)⟩ := by
  induction h with
  | nil => exact fun hf => absurd hf (by simp)
  | @cons known next after index f rest binding bindings hsignature hadd _ hrest ih =>
    obtain ⟨-, rfl⟩ := Scope.addFunction_eq_ok.1 hadd
    have hinner₁ : (known.withCallee ⟨binding, .declared index⟩).inner = [] :=
      Scope.inner_withCallee_eq_nil.2 hinner
    intro i g hg
    cases i with
    | zero =>
      cases hg
      exact ⟨binding, rfl, hsignature,
        hrest.callee?_of_known hinner₁ (Scope.callee?_withCallee_self ⟨binding, .declared index⟩)⟩
    | succ i =>
      obtain ⟨found, hfound, hsig, hcallee⟩ := ih hinner₁ hg
      exact ⟨found, hfound, hsig, by rw [hcallee, Nat.add_right_comm, Nat.add_assoc]⟩

end Functions

/-! ## Runs -/

/-- The function and the signature at one position belong together. -/
theorem FunctionDef.typed_of_getElem? {known : Scope} {fs : List FunctionDef}
    {bindings : List FunctionBinding}
    (h : List.Forall₂ (FunctionDef.Typed types noted missing known) fs bindings) {i : Nat}
    {binding : FunctionBinding} (hbinding : bindings[i]? = some binding) :
    ∃ f, fs[i]? = some f ∧ f.Typed types noted missing known binding := by
  obtain ⟨hlt, rfl⟩ := List.getElem?_eq_some_iff.1 hbinding
  have hlt' : i < fs.length := by rwa [h.length_eq]
  exact ⟨fs[i], List.getElem?_eq_getElem hlt', h.get hlt' hlt⟩

/-- The functions of a well-typed program are all that is known, beside the built-in ones. -/
theorem Program.Typed.provides {early known : Scope}
    (h : p.Typed types noted missing early known) :
    known.inner = [] ∧ known.Provides p types noted missing known := by
  obtain ⟨bindings, hdeclared, htyped⟩ := h.functions
  obtain ⟨hearly, hbuiltins⟩ := h.globals.frame rfl Scope.OnlyBuiltins.initial
  obtain ⟨hinner, hcallees⟩ := hdeclared.frame hearly
  refine ⟨hinner, ?_⟩
  intro frame hframe c hc
  rw [Scope.frames, hinner, List.nil_append, List.mem_singleton] at hframe
  subst hframe
  rcases hcallees c hc with hc | ⟨i, htarget, hbinding⟩
  · exact .inl (hbuiltins early.root (by simp [Scope.frames]) c hc)
  · rw [Nat.zero_add] at htarget
    obtain ⟨f, hf, hftyped⟩ := FunctionDef.typed_of_getElem? htyped hbinding
    exact .inr ⟨rfl, i, f, htarget, hf, hftyped⟩

/-- `main` is found in the run, is well typed, takes no arguments and returns an integer. -/
theorem Program.Typed.main_found {early known : Scope} {s : State}
    (h : p.Typed types noted missing early known) (hmatch : known.Matches missing s.scope) :
    ∃ index f binding, s.scope.mainIndex = .ok index ∧ p.functions[index]? = some f ∧
      f.Typed types noted missing known binding ∧ binding.parameterTypes = [] ∧
      binding.returnType = .integer := by
  obtain ⟨bindings, hdeclared, htyped⟩ := h.functions
  obtain ⟨f, hf, hmain, hreturn⟩ := h.main
  obtain ⟨i, hi⟩ := List.mem_iff_getElem?.1 hf
  obtain ⟨binding, hbinding, hsignature, hcallee⟩ :=
    hdeclared.callee?_of_getElem? (h.globals.frame rfl Scope.OnlyBuiltins.initial).1 hi
  obtain ⟨hname, harity, hty⟩ := FunctionDef.signature_eq_ok hsignature
  obtain ⟨hmainName, hparameters⟩ := Bool.and_eq_true_iff.1 hmain
  have harity' : binding.arity = 0 := by rw [harity, List.isEmpty_iff.1 hparameters]; rfl
  rw [hname, beq_iff_eq.1 hmainName, harity', Nat.zero_add] at hcallee
  obtain ⟨⟨_, target⟩, hc, hcmatch⟩ := hmatch.callee?_eq_some hcallee
  have htarget : target = .declared i := hcmatch.target
  subst htarget
  obtain ⟨g, hg, hgtyped⟩ := FunctionDef.typed_of_getElem? htyped hbinding
  have hindex : s.scope.mainIndex = .ok i := by rw [Scope.mainIndex, hc]
  have hresult : binding.returnType = .integer := Except.ok.inj (hty.symm.trans hreturn)
  exact ⟨i, g, binding, hindex, hg, hgtyped, List.eq_nil_of_length_eq_zero harity', hresult⟩

/-- **Runs are sound.**  A well-typed program returns a value that fits `Integer`, or fails with an
error that is excused. -/
theorem Program.Typed.sound {early known : Scope} (h : p.Typed types noted missing early known)
    (n : Nat) :
    (p.start (p.host sink n) ⟨.initial, []⟩).Meets (fun v _ => v.Fits missing .integer)
      (p.Excused sink noted missing .program ⟨.initial, []⟩) := by
  obtain ⟨hinner, hprovides⟩ := h.provides
  have hcalls : p.CallsSound sink types noted missing known n :=
    Program.callsSound hinner hprovides n
  obtain ⟨bindings, hdeclared, -⟩ := h.functions
  have hg := (h.globals.sound hcalls Scope.OnlyBuiltins.initial .initial).within .program
    ⟨.initial, []⟩ fun _ _ => ⟨_, _, .globals⟩
  rw [Program.start]
  refine hg.bind ?_
  intro _ s₁ hs₁ hmatch₁
  obtain ⟨s₂, hs₂, hmatch₂⟩ := hdeclared.sound hmatch₁
  obtain ⟨index, f, binding, hmain, hf, hftyped, hparameters, hresult⟩ := h.main_found hmatch₂
  rw [Eval.bind_of_done hs₂, Eval.bind_of_done Eval.scope_apply, hmain, Eval.lift_ok, pure_bind]
  have hcall := (hcalls hf hftyped rfl hmatch₂ (hparameters ▸ .nil)).within .program
    ⟨.initial, []⟩ fun _ _ => ⟨_, _, .main ⟨n, hs₁⟩ hs₂ hmain⟩
  refine hcall.bind ?_
  rintro v s₃ _ ⟨hfits, _⟩
  have hflush : (Eval.flush sink s₃).Meets (fun _ _ => True)
      (p.Excused sink noted missing .program ⟨.initial, []⟩) := by
    rw [Eval.flush]
    cases sink.flushRefusal? with
    | none => trivial
    | some reason => exact .inl rfl
  exact hflush.bind fun _ _ _ _ => hresult ▸ hfits

section Results

variable {early known : Scope} {rounds : Nat} {writes : List String}

/-- A run that succeeds has a result that fits `Integer`. -/
theorem Program.Typed.result_fits {v : Value} (h : p.Typed types noted missing early known)
    (hrun : p.runWithin rounds sink = some ⟨.ok v, writes⟩) : v.Fits missing .integer := by
  obtain ⟨s, hdone⟩ := RunResult.ofOutcome?_eq_ok hrun
  exact (h.sound rounds).of_done hdone

/-- A run that fails does so with an error that is excused. -/
theorem Program.Typed.error_excused {e : Error} (h : p.Typed types noted missing early known)
    (hrun : p.runWithin rounds sink = some ⟨.error e, writes⟩) :
    p.Excused sink noted missing .program ⟨.initial, []⟩ e :=
  (h.sound rounds).of_failed (RunResult.ofOutcome?_eq_error hrun)

end Results

end ImpTree
