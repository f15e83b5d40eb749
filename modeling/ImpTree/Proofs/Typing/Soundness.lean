import ImpTree.Proofs.Run.Clashes
import ImpTree.Proofs.Run.Outcomes
import ImpTree.Proofs.Run.Steps
import ImpTree.Proofs.Typing.Matches
import ImpTree.Proofs.Typing.Rules

/-!
# Soundness of the typing rules

Expressions and statements that are well typed, evaluated and executed in a scope that matches what
is known there.  What comes out fits its type and leaves a matching scope, and what fails is
excused.

Expressions and statements are taken one after the other along their structure; calls are taken by
the number of rounds that are left for them.

* `Scope.Provides` — every function that is known can be called.
* `Expr.sound`, `Stmt.sound` — **evaluation and execution are sound** if calls are.
* `Program.CallsSound` — what is required of calls.
-/

namespace ImpTree

/-! ## Requirements -/

/-- Every function that is known is built in, or it is well typed where the whole program is known,
and then the root has all the globals. -/
def Scope.Provides (known : Scope) (p : Program) (types : TypeNames) (noted missing : Prop)
    (whole : Scope) : Prop :=
  ∀ frame ∈ known.frames, ∀ c ∈ frame.callees,
    (∃ b : Builtin, c = ⟨b.binding, .builtin b⟩) ∨
      known.root = whole.root ∧ ∃ index f, c.target = .declared index ∧
        p.functions[index]? = some f ∧ f.Typed types noted missing whole c.binding

/-- Calls within a number of rounds are sound: a well-typed function on arguments that fit its
parameters has a result that fits, leaves a matching scope, and fails only if that is excused. -/
def Program.CallsSound (p : Program) (sink : Sink) (types : TypeNames) (noted missing : Prop)
    (whole : Scope) (n : Nat) : Prop :=
  ∀ ⦃index : Nat⦄ ⦃f : FunctionDef⦄ ⦃binding : FunctionBinding⦄ ⦃known : Scope⦄
    ⦃arguments : List Value⦄ ⦃s : State⦄,
    p.functions[index]? = some f → f.Typed types noted missing whole binding →
    known.root = whole.root → known.Matches missing s.scope →
    List.Forall₂ (fun ty v => Value.Fits missing ty v) binding.parameterTypes arguments →
    ((p.host sink n).call index arguments s).Meets
      (fun v s' => v.Fits missing binding.returnType ∧ known.Matches missing s'.scope)
      (p.Excused sink noted missing (.call index arguments) s)

variable {p : Program} {sink : Sink} {types : TypeNames} {noted missing : Prop} {whole : Scope}
  {n : Nat}

namespace Scope.Provides

variable {known : Scope}

/-- A new frame brings no function. -/
theorem child (h : known.Provides p types noted missing whole) :
    known.child.Provides p types noted missing whole := by
  intro frame hframe c hc
  rw [frames_child] at hframe
  rcases List.mem_cons.1 hframe with rfl | hframe
  · cases hc
  · exact h frame hframe c hc

/-- A variable inside the root brings no function. -/
theorem withVariable (hinner : known.inner ≠ []) (h : known.Provides p types noted missing whole)
    (v : Variable) : (known.withVariable v).Provides p types noted missing whole := by
  intro frame hframe c hc
  obtain ⟨old, hold, hcallees⟩ := exists_frame_of_withVariable hframe
  rw [root_withVariable hinner]
  rw [← hcallees] at hc
  exact h old hold c hc

/-- What is known of a function that is found. -/
theorem of_callee? {name : String} {arity : Nat} {c : Callee}
    (h : known.Provides p types noted missing whole) (hc : known.callee? name arity = some c) :
    (∃ b : Builtin, c = ⟨b.binding, .builtin b⟩) ∨
      known.root = whole.root ∧ ∃ index f, c.target = .declared index ∧
        p.functions[index]? = some f ∧ f.Typed types noted missing whole c.binding := by
  obtain ⟨-, -, frame, hframe, hmem⟩ := callee?_eq_some hc
  exact h frame hframe c hmem

end Scope.Provides

/-- What is required of a part of a task is required within the task. -/
theorem Outcome.Meets.within {α : Type} {o : Outcome α} {post : α → State → Prop} {task' : Task}
    {s' : State} (h : o.Meets post (p.Excused sink noted missing task' s')) (task : Task)
    (s : State) (hstep : ∀ known waiting, ∃ known' waiting',
      p.Step sink ⟨task, s, known, waiting⟩ ⟨task', s', known', waiting'⟩) :
    o.Meets post (p.Excused sink noted missing task s) :=
  h.mono (fun _ _ _ h => h) fun _ he => he.of_step hstep

/-- An operation on values meets what is required of an expression, if every mismatch that it can
come to is a clash. -/
theorem Value.Yields.meets {reason : Prop} {ty : Ty} {x : Except Error Value} {known : Scope}
    {task : Task} {s s₀ : State} (h : Value.Yields missing ty reason x)
    (hmatch : known.Matches missing s.scope)
    (hclash : ∀ e, x = .error e → reason → p.Clash sink task s₀ e) :
    (Eval.lift x s).Meets (fun v s' => v.Fits missing ty ∧ known.Matches missing s'.scope)
      (p.Excused sink noted missing task s₀) := by
  rcases h with ⟨v, hv, hfits⟩ | ⟨e, he, hruntime | ⟨hm, hmis, hreason⟩⟩
  · rw [hv]
    exact ⟨hfits, hmatch⟩
  · rw [he]
    exact .inl hruntime
  · rw [he]
    exact .of_mismatch hm hmis (hclash e he hreason)

/-! ## Built-in functions -/

/-- What is written leaves the scope alone, and only the sink can fail. -/
theorem Eval.meets_writeAll {known : Scope} {task : Task} {s₀ : State} :
    ∀ (texts : List String) {s : State}, known.Matches missing s.scope →
      (Eval.writeAll sink texts s).Meets (fun _ s' => known.Matches missing s'.scope)
        (p.Excused sink noted missing task s₀) := by
  intro texts
  induction texts with
  | nil => exact fun h => h
  | cons text rest ih =>
    intro s h
    have hwrite : (Eval.write sink text s).Meets (fun _ s' => known.Matches missing s'.scope)
        (p.Excused sink noted missing task s₀) := by
      rw [Eval.write]
      cases sink.refusal? s.writes with
      | none => exact h
      | some reason => exact .inl rfl
    exact hwrite.bind fun _ s₁ _ h₁ => ih h₁

/-- A built-in function has a result that fits. -/
theorem Builtin.sound (b : Builtin) {known : Scope} {task : Task} {s s₀ : State}
    {arguments : List Value} (h : known.Matches missing s.scope) :
    (b.invoke sink arguments s).Meets
      (fun v s' => v.Fits missing b.binding.returnType ∧ known.Matches missing s'.scope)
      (p.Excused sink noted missing task s₀) := by
  have hlines : ∀ (values : List Value) {s : State}, known.Matches missing s.scope →
      (printLines sink values s).Meets (fun _ s' => known.Matches missing s'.scope)
        (p.Excused sink noted missing task s₀) := by
    intro values
    induction values with
    | nil => exact fun h => h
    | cons v rest ih =>
      intro s h
      exact (Eval.meets_writeAll _ h).bind fun _ s₁ _ h₁ => ih h₁
  cases b with
  | print => exact (hlines arguments h).bind fun _ s₁ _ h₁ => ⟨.inr rfl, h₁⟩

/-! ## Expressions -/

/-- A well-typed truth value is one, or it is missing. -/
theorem Value.Fits.truth {v : Value} (h : v.Fits missing .boolean) (span : Span) :
    (∃ b, v = .boolean b ∧ v.truth span = .ok b) ∨
      missing ∧ v = .nil ∧ v.truth span = .error (Value.mismatch "Boolean" .nil span) := by
  rcases h with ⟨hm, rfl⟩ | ⟨b, rfl⟩
  · exact .inr ⟨hm, rfl, rfl⟩
  · exact .inl ⟨b, rfl, rfl⟩

/-- There are as many expressions as types. -/
theorem Expr.AllTyped.length_eq {known : Scope} : ∀ {es : List Expr} {tys : List Ty},
    Expr.AllTyped noted missing known es tys → es.length = tys.length
  | [], _, h => by cases h; rfl
  | _ :: _, _, h => by
    cases h with
    | cons _ hrest => rw [List.length_cons, List.length_cons, hrest.length_eq]

/-- Values of the arguments' types fit the parameters that accept them. -/
theorem fits_parameters {parameters tys : List Ty} {values : List Value}
    (haccepts : List.Forall₂ (fun parameter ty => parameter.accepts ty = true) parameters tys)
    (hvalues : List.Forall₂ (fun ty v => Value.Fits missing ty v) tys values) :
    List.Forall₂ (fun ty v => Value.Fits missing ty v) parameters values := by
  induction haccepts generalizing values with
  | nil => cases hvalues; exact .nil
  | cons hacc _ ih =>
    cases hvalues with
    | cons hv hrest => exact .cons (hv.of_accepts hacc) (ih hrest)

/-- Values of one type are elements of a list of that type. -/
theorem fits_elements {ty : Ty} {tys : List Ty} {values : List Value} (hsame : ∀ t ∈ tys, t = ty)
    (hvalues : List.Forall₂ (fun ty v => Value.Fits missing ty v) tys values) :
    ∀ item ∈ values, item.Fits missing ty := by
  induction hvalues with
  | nil => exact fun _ hitem => absurd hitem List.not_mem_nil
  | @cons t v _ _ hv _ ih =>
    intro item hitem
    rcases List.mem_cons.1 hitem with rfl | hitem
    · exact hsame t List.mem_cons_self ▸ hv
    · exact ih (fun x hx => hsame x (List.mem_cons_of_mem _ hx)) item hitem

section Operands

variable {known : Scope} {op : BinaryOp} {left right : Expr} {span : Span} {slot : Slot Ty}
  {rightTy : Ty} {a : Value} {s s₁ : State}

/-- After the left operand of `&&` or `||`: the right one is needed unless the left one decides. -/
theorem Expr.logicSound (hop : op = .and ∨ op = .or)
    (ha : left.evaluate (p.host sink n) s = .done a s₁) (hafits : a.Fits missing .boolean)
    (hmatch₁ : known.Matches missing s₁.scope)
    (hr : (right.evaluate (p.host sink n) s₁).Meets
      (fun b s₂ => b.Fits missing .boolean ∧ known.Matches missing s₂.scope)
      (p.Excused sink noted missing (.expr right) s₁)) :
    ((do
      let decided ← Eval.lift (a.truth left.span)
      if decided = (op == .or) then
        return .boolean decided
      else
        let b ← right.evaluate (p.host sink n)
        let result ← Eval.lift (b.truth right.span)
        return .boolean result : Eval Value) s₁).Meets
      (fun v s' => v.Fits missing .boolean ∧ known.Matches missing s'.scope)
      (p.Excused sink noted missing (.expr (.binary op left right span slot)) s) := by
  rcases hafits.truth left.span with ⟨decided, rfl, htruth⟩ | ⟨hm, rfl, htruth⟩
  · rw [htruth, Eval.lift_ok, pure_bind]
    by_cases hopen : decided = (op == .or)
    · rw [if_pos hopen]
      exact ⟨Value.fits_boolean _, hmatch₁⟩
    · rw [if_neg hopen]
      have hr' := hr.within (.expr (.binary op left right span slot)) s
        fun _ _ => ⟨_, _, .undecided hop ⟨n, ha⟩ hopen⟩
      refine hr'.bind ?_
      rintro b s₂ hb ⟨hbfits, hmatch₂⟩
      rcases hbfits.truth right.span with ⟨result, rfl, htruth⟩ | ⟨hm, rfl, htruth⟩
      · rw [htruth]
        exact ⟨Value.fits_boolean _, hmatch₂⟩
      · rw [htruth]
        exact .of_mismatch hm (Value.isMismatch_mismatch ..)
          (.logicRight hop ⟨n, ha⟩ hopen ⟨n, hb⟩)
  · rw [htruth]
    exact .of_mismatch hm (Value.isMismatch_mismatch ..) (.logicLeft hop ⟨n, ha⟩)

/-- After the left operand of another operator: the right one, and the operator on both. -/
theorem Expr.operatorSound {leftTy ty : Ty} (hop : ¬(op = .and ∨ op = .or))
    (hty : op.resultTy leftTy rightTy span = .ok ty)
    (hdef : missing ∨ (op.IsOrdering → leftTy ≠ .comparable))
    (ha : left.evaluate (p.host sink n) s = .done a s₁) (hafits : a.Fits missing leftTy)
    (hr : (right.evaluate (p.host sink n) s₁).Meets
      (fun b s₂ => b.Fits missing rightTy ∧ known.Matches missing s₂.scope)
      (p.Excused sink noted missing (.expr right) s₁)) :
    ((do
      let b ← right.evaluate (p.host sink n)
      Eval.lift (op.apply a b span) : Eval Value) s₁).Meets
      (fun v s' => v.Fits missing ty ∧ known.Matches missing s'.scope)
      (p.Excused sink noted missing (.expr (.binary op left right span slot)) s) := by
  have hr' := hr.within (.expr (.binary op left right span slot)) s
    fun _ _ => ⟨_, _, .right hop ⟨n, ha⟩⟩
  refine hr'.bind ?_
  rintro b s₂ hb ⟨hbfits, hmatch₂⟩
  have hbehaves : op.Behaves missing a b ty span :=
    BinaryOp.apply_of_fits hop hty hdef hafits hbfits
  refine Value.Yields.meets hbehaves hmatch₂ ?_
  intro e he hreason
  rcases hreason with hnil | ⟨hord, hkind⟩
  · exact .operand hop ⟨n, ha⟩ ⟨n, hb⟩ hnil he
  · rw [BinaryOp.apply_of_kind_ne hord hkind] at he
    cases he
    exact .ordering hord ⟨n, ha⟩ ⟨n, hb⟩ hkind

end Operands

mutual

/-- **Evaluation is sound**, if calls are. -/
theorem Expr.sound (hcalls : p.CallsSound sink types noted missing whole n) :
    ∀ (e : Expr) {known : Scope} {ty : Ty} {s : State}, e.Typed noted missing known ty →
      known.Provides p types noted missing whole → known.Matches missing s.scope →
      (e.evaluate (p.host sink n) s).Meets
        (fun v s' => v.Fits missing ty ∧ known.Matches missing s'.scope)
        (p.Excused sink noted missing (.expr e) s)
  | .literal value span slot, known, ty, s, htyped, hprovides, hmatch => by
    cases htyped with
    | literal hty _ => exact ⟨Literal.value_fits hty, hmatch⟩
  | .group inner span slot, known, ty, s, htyped, hprovides, hmatch => by
    cases htyped with
    | group _ hinner _ =>
      exact (Expr.sound hcalls inner hinner hprovides hmatch).within _ _
        fun _ _ => ⟨_, _, .inner⟩
  | .binary op left right span slot, known, ty, s, htyped, hprovides, hmatch => by
    cases htyped with
    | @binary _ _ _ _ _ leftTy rightTy _ hleft hright hty hdef _ =>
      have hl := (Expr.sound hcalls left hleft hprovides hmatch).within
        (.expr (.binary op left right span slot)) s fun _ _ => ⟨_, _, .left⟩
      rw [Expr.evaluate]
      refine hl.bind ?_
      rintro a s₁ ha ⟨hafits, hmatch₁⟩
      have hr := Expr.sound hcalls right hright hprovides hmatch₁
      by_cases hop : op = .and ∨ op = .or
      · rw [if_pos hop]
        obtain ⟨rfl, rfl, rfl⟩ := BinaryOp.resultTy_logic hop hty
        exact Expr.logicSound hop ha hafits hmatch₁ hr
      · rw [if_neg hop]
        exact Expr.operatorSound hop hty hdef ha hafits hr
  | .var name binding span slot, known, ty, s, htyped, hprovides, hmatch => by
    cases htyped with
    | var hfound _ _ =>
      obtain ⟨v, hv, hvmatch⟩ := hmatch.var?_eq_some hfound
      rw [Expr.evaluate, Eval.bind_of_done (Eval.lookup_of_var? hv)]
      exact ⟨hvmatch.value, hmatch⟩
  | .element name offset binding span slot, known, ty, s, htyped, hprovides, hmatch => by
    cases htyped with
    | element hoffset hfound hlist _ _ =>
      have ho := (Expr.sound hcalls offset hoffset hprovides hmatch).within
        (.expr (.element name offset binding span slot)) s fun _ _ => ⟨_, _, .offset⟩
      rw [Expr.evaluate]
      refine ho.bind ?_
      rintro index s₁ hindex ⟨hifits, hmatch₁⟩
      obtain ⟨v, hv, hvmatch⟩ := hmatch₁.var?_eq_some hfound
      rw [Eval.bind_of_done (Eval.lookup_of_var? hv)]
      have hvfits : v.value.Fits missing (.list ty) := hlist ▸ hvmatch.value
      refine (Value.elementAt_of_fits hvfits hifits).meets hmatch₁ ?_
      intro e he hnil
      exact .element ⟨n, hindex⟩ hv hnil he
  | .call name arguments binding span slot, known, ty, s, htyped, hprovides, hmatch => by
    cases htyped with
    | @call _ _ _ _ _ callee tys hfound harguments haccepts _ _ =>
      have hargs := (Expr.allSound hcalls arguments harguments hprovides hmatch).within
        (.expr (.call name arguments binding span slot)) s fun _ _ => ⟨_, _, .arguments⟩
      rw [Expr.evaluate]
      refine hargs.bind ?_
      rintro values s₁ hvalues ⟨hfits, hmatch₁⟩
      have hlength : values.length = arguments.length := by
        rw [harguments.length_eq, hfits.length_eq]
      obtain ⟨c, hc, hcmatch⟩ := hmatch₁.callee?_eq_some hfound
      rw [Eval.bind_of_done Eval.scope_apply, hlength, Scope.findFunction_eq_ok.2 hc, Eval.lift_ok,
        pure_bind]
      rcases hprovides.of_callee? hfound with ⟨b, rfl⟩ | ⟨hroot, index, f, htarget, hf, hftyped⟩
      · rw [hcmatch.target]
        exact Builtin.sound b hmatch₁
      · rw [hcmatch.target, htarget]
        exact (hcalls hf hftyped hroot hmatch₁ (fits_parameters haccepts hfits)).within _ _
          fun _ _ => ⟨_, _, .callee ⟨n, hvalues⟩ (hlength ▸ hc) (hcmatch.target.trans htarget)⟩
  | .list elements span slot, known, ty, s, htyped, hprovides, hmatch => by
    cases htyped with
    | list helements _ hsame _ =>
      have hall := (Expr.allSound hcalls elements helements hprovides hmatch).within
        (.expr (.list elements span slot)) s fun _ _ => ⟨_, _, .elements⟩
      rw [Expr.evaluate]
      exact hall.bind fun values s₁ _ ⟨hfits, hmatch₁⟩ =>
        ⟨Value.fits_list (fits_elements hsame hfits), hmatch₁⟩

/-- The values of well-typed expressions fit their types, one by one. -/
theorem Expr.allSound (hcalls : p.CallsSound sink types noted missing whole n) :
    ∀ (es : List Expr) {known : Scope} {tys : List Ty} {s : State},
      Expr.AllTyped noted missing known es tys →
      known.Provides p types noted missing whole → known.Matches missing s.scope →
      (Expr.evaluateAll (p.host sink n) es s).Meets
        (fun vs s' => List.Forall₂ (fun ty v => Value.Fits missing ty v) tys vs ∧
          known.Matches missing s'.scope)
        (p.Excused sink noted missing (.exprs es) s)
  | [], known, tys, s, htyped, hprovides, hmatch => by
    cases htyped with
    | nil => exact ⟨.nil, hmatch⟩
  | e :: rest, known, tys, s, htyped, hprovides, hmatch => by
    cases htyped with
    | cons he hrest =>
      have h₁ := (Expr.sound hcalls e he hprovides hmatch).within (.exprs (e :: rest)) s
        fun _ _ => ⟨_, _, .firstExpr⟩
      rw [Expr.evaluateAll]
      refine h₁.bind ?_
      rintro v s₁ hv ⟨hfits, hmatch₁⟩
      have h₂ := (Expr.allSound hcalls rest hrest hprovides hmatch₁).within (.exprs (e :: rest)) s
        fun _ _ => ⟨_, _, .nextExprs ⟨n, hv⟩⟩
      exact h₂.bind fun vs s₂ _ ⟨hall, hmatch₂⟩ => ⟨.cons hfits hall, hmatch₂⟩

end

/-! ## Conditions and initial values -/

section Parts

variable {known : Scope} {task : Task} {s : State}

/-- A condition comes out as a truth value, or it clashes. -/
theorem Expr.conditionSound (hcalls : p.CallsSound sink types noted missing whole n)
    {condition : Expr} (htyped : condition.Typed noted missing known .boolean)
    (hprovides : known.Provides p types noted missing whole)
    (hmatch : known.Matches missing s.scope)
    (hstep : ∀ known waiting, ∃ known' waiting',
      p.Step sink ⟨task, s, known, waiting⟩ ⟨.expr condition, s, known', waiting'⟩)
    (hclash : ∀ s₁, p.Ends sink (fun host => condition.evaluate host) s .nil s₁ →
      p.Clash sink task s (Value.mismatch "Boolean" .nil condition.span)) :
    (condition.evaluateCondition (p.host sink n) s).Meets
      (fun holds s₁ => known.Matches missing s₁.scope ∧
        p.Ends sink (fun host => condition.evaluate host) s (.boolean holds) s₁)
      (p.Excused sink noted missing task s) := by
  have hc := (Expr.sound hcalls condition htyped hprovides hmatch).within task s hstep
  rw [Expr.evaluateCondition]
  refine hc.bind ?_
  rintro v s₁ hv ⟨hfits, hmatch₁⟩
  rcases hfits.truth condition.span with ⟨holds, rfl, htruth⟩ | ⟨hm, rfl, htruth⟩
  · rw [htruth]
    exact ⟨hmatch₁, n, hv⟩
  · rw [htruth]
    exact .of_mismatch hm (Value.isMismatch_mismatch ..) (hclash s₁ ⟨n, hv⟩)

/-- The initial value of a declaration fits the declared type. -/
theorem Declares.sound (hcalls : p.CallsSound sink types noted missing whole n)
    {typeName : Option String} {value : Option Expr} {ty : Ty}
    (hdeclares : Declares types noted missing known typeName value ty)
    (hprovides : known.Provides p types noted missing whole)
    (hmatch : known.Matches missing s.scope) (task : Task)
    (hstep : ∀ e, value = some e → ∀ known waiting, ∃ known' waiting',
      p.Step sink ⟨task, s, known, waiting⟩ ⟨.expr e, s, known', waiting'⟩) :
    (Expr.evaluateOption (p.host sink n) value s).Meets
      (fun v s' => v.Fits missing ty ∧ known.Matches missing s'.scope)
      (p.Excused sink noted missing task s) := by
  cases hdeclares with
  | named _ hnil => exact ⟨hnil, hmatch⟩
  | @both _ value _ _ _ hvalue haccepts =>
    have hv := (Expr.sound hcalls value hvalue hprovides hmatch).within task s (hstep value rfl)
    exact hv.mono (fun _ _ _ ⟨hfits, hmatch₁⟩ => ⟨hfits.of_accepts haccepts, hmatch₁⟩)
      fun _ he => he
  | @inferred value _ hvalue =>
    exact (Expr.sound hcalls value hvalue hprovides hmatch).within task s (hstep value rfl)

end Parts

/-! ## Statements -/

/-- A result fits; without one, the statements did not have to end with one. -/
def Flow.Fits (missing : Prop) (result : Ty) (returns : Bool) : Flow → Prop
  | none => returns = false
  | some v => v.Fits missing result

section Statements

variable {result : Ty}

/-- What holds of a result if one is sure also holds if it is less sure. -/
theorem Flow.Fits.mono {returns returns' : Bool} {flow : Flow}
    (h : Flow.Fits missing result returns flow) (hle : returns' = true → returns = true) :
    Flow.Fits missing result returns' flow := by
  cases flow with
  | none =>
    have hreturns : returns = false := h
    rw [hreturns] at hle
    exact Bool.eq_false_iff.2 fun h' => Bool.false_ne_true (hle h')
  | some v => exact h

/-- A block in a frame of its own, within a statement. -/
theorem Stmt.childSound {known : Scope} {host : Host} {body : List Stmt} {s : State}
    {returns : Bool} {excuse : Error → Prop}
    (h : (Stmt.executeBlock host body s.enter).Meets
      (fun flow s' => known.child.leave.Matches missing s'.scope.leave ∧
        Flow.Fits missing result (Stmt.blockReturns body) flow) excuse)
    (hle : returns = true → Stmt.blockReturns body = true) :
    (Eval.inChild (Stmt.executeBlock host body) s).Meets
      (fun flow s' => known.Matches missing s'.scope ∧ Flow.Fits missing result returns flow)
      excuse :=
  Outcome.Meets.inChild (h.mono (fun _ _ _ ⟨hmatch, hfits⟩ => ⟨hmatch, hfits.mono hle⟩)
    fun _ he => he)

/-- A statement adds at most a variable to what is known. -/
theorem Stmt.Typed.after_eq {known after : Scope} {stmt : Stmt}
    (h : Stmt.Typed types noted missing result known stmt after) :
    after = known ∨ ∃ v, after = known.withVariable v := by
  cases h with
  | declaration _ hadd _ => exact .inr ⟨_, (Scope.addVariable_eq_ok.1 hadd).2⟩
  | expression => exact .inl rfl
  | assigned => exact .inl rfl
  | assignedElement => exact .inl rfl
  | ifElse => exact .inl rfl
  | switch => exact .inl rfl
  | whileLoop => exact .inl rfl
  | ret => exact .inl rfl

/-- What a statement inside the root leaves as it was. -/
theorem Stmt.Typed.frame {known after : Scope} {stmt : Stmt}
    (h : Stmt.Typed types noted missing result known stmt after) (hinner : known.inner ≠ [])
    (hprovides : known.Provides p types noted missing whole) :
    after.inner ≠ [] ∧ after.leave = known.leave ∧
      after.Provides p types noted missing whole := by
  rcases h.after_eq with rfl | ⟨v, rfl⟩
  · exact ⟨hinner, rfl, hprovides⟩
  · exact ⟨Scope.inner_withVariable_ne_nil.2 hinner, Scope.leave_withVariable hinner v,
      hprovides.withVariable hinner v⟩

/-- A variable that the checker can declare is declared, with a value that fits. -/
theorem Scope.Matches.declare {known after : Scope} {s : State}
    {binding : VariableBinding} {dummy value : Value} {span : Span}
    (h : known.Matches missing s.scope) (hadd : known.addVariable binding dummy span = .ok after)
    (actual : VariableBinding) (place : Span) (hname : actual.name = binding.name)
    (hmut : actual.isMutable = binding.isMutable) (hfits : value.Fits missing binding.ty) :
    ∃ s', Eval.declare actual value place s = .done () s' ∧
      after.Matches missing s'.scope := by
  obtain ⟨scope, hscope, hmatch⟩ := h.addVariable hadd hname hmut hfits
  exact ⟨_, Eval.declare_of_addVariable hscope, hmatch⟩

section Assignments

variable {known : Scope} {s : State} {name : String} {binding : Slot VariableBinding}
  {place span : Span} {slot : Slot Ty} {value : Expr} {found : Variable} {source : Ty}
  (hcalls : p.CallsSound sink types noted missing whole n)
  (hprovides : known.Provides p types noted missing whole) (hmatch : known.Matches missing s.scope)

include hcalls hprovides hmatch

/-- A new value for a variable. -/
theorem Stmt.assignedSound (hfound : known.var? name = some found)
    (hvalue : value.Typed noted missing known source)
    (haccepts : found.binding.ty.accepts source = true)
    (hmutable : noted → found.binding.isMutable = true) :
    ((Stmt.assignment (.var name binding place slot) value span).execute (p.host sink n) s).Meets
      (fun flow s' => known.Matches missing s'.scope ∧ Flow.Fits missing result false flow)
      (p.Excused sink noted missing
        (.stmt (.assignment (.var name binding place slot) value span)) s) := by
  have hv := (Expr.sound hcalls value hvalue hprovides hmatch).within
    (.stmt (.assignment (.var name binding place slot) value span)) s fun _ _ => ⟨_, _, .assigned⟩
  rw [Stmt.execute]
  refine hv.bind ?_
  rintro v s₁ hends ⟨hfits, hmatch₁⟩
  obtain ⟨x, hx, hxmatch⟩ := hmatch₁.var?_eq_some hfound
  cases hmut : x.binding.isMutable with
  | true =>
    rw [Eval.bind_of_done (assignTo_variable hx hmut)]
    exact ⟨hmatch₁.assign hfound (hfits.of_accepts haccepts), rfl⟩
  | false =>
    rw [Eval.bind_of_failed (assignTo_immutable hx hmut)]
    have hstale : ¬noted := hxmatch.not_noted hmut hmutable
    exact .of_form hstale ⟨_, _, rfl⟩ (.immutable ⟨n, hends⟩ hx hmut)

/-- A new value for an element of a list. -/
theorem Stmt.assignedElementSound {offset : Expr} {target : Ty}
    (hoffset : offset.Typed noted missing known .integer) (hfound : known.var? name = some found)
    (hlist : found.binding.ty = .list target) (hvalue : value.Typed noted missing known source)
    (haccepts : target.accepts source = true)
    (hmutable : noted → found.binding.isMutable = true) :
    ((Stmt.assignment (.element name offset binding place slot) value span).execute
        (p.host sink n) s).Meets
      (fun flow s' => known.Matches missing s'.scope ∧ Flow.Fits missing result false flow)
      (p.Excused sink noted missing
        (.stmt (.assignment (.element name offset binding place slot) value span)) s) := by
  have ho := (Expr.sound hcalls offset hoffset hprovides hmatch).within
    (.stmt (.assignment (.element name offset binding place slot) value span)) s
    fun _ _ => ⟨_, _, .assignedOffset⟩
  rw [Stmt.execute]
  refine ho.bind ?_
  rintro index s₁ hindex ⟨hifits, hmatch₁⟩
  have hv := (Expr.sound hcalls value hvalue hprovides hmatch₁).within
    (.stmt (.assignment (.element name offset binding place slot) value span)) s
    fun _ _ => ⟨_, _, .assignedElement ⟨n, hindex⟩⟩
  refine hv.bind ?_
  rintro v s₂ hends ⟨hfits, hmatch₂⟩
  obtain ⟨x, hx, hxmatch⟩ := hmatch₂.var?_eq_some hfound
  cases hmut : x.binding.isMutable with
  | true =>
    have hxfits : x.value.Fits missing (.list target) := hlist ▸ hxmatch.value
    have hvfits : v.Fits missing target := hfits.of_accepts haccepts
    rcases Value.withElementAt_of_fits hxfits hifits hvfits with
      ⟨new, hnew, hnewfits⟩ | ⟨e, he, hwhy⟩
    · rw [Eval.bind_of_done (assignTo_element hx hmut hnew)]
      exact ⟨hmatch₂.assign hfound (hlist ▸ hnewfits), rfl⟩
    · rw [Eval.bind_of_failed (assignTo_element_failed hx hmut he)]
      rcases hwhy with hruntime | ⟨hm, hmis, hnil⟩
      · exact .inl hruntime
      · exact .of_mismatch hm hmis (.assignedElement ⟨n, hindex⟩ ⟨n, hends⟩ hx hmut hnil he)
  | false =>
    rw [Eval.bind_of_failed (assignTo_immutable hx hmut)]
    have hstale : ¬noted := hxmatch.not_noted hmut hmutable
    exact .of_form hstale ⟨_, _, rfl⟩ (.immutableElement ⟨n, hindex⟩ ⟨n, hends⟩ hx hmut)

end Assignments

/-- A loop, if its body is sound in every round: what is known holds before each of them, and a
later round belongs to the same loop. -/
theorem Stmt.loopSound {known : Scope} {condition : Expr} {body : List Stmt} {span : Span}
    {s : State} (hcalls : p.CallsSound sink types noted missing whole n)
    (hcondition : condition.Typed noted missing known .boolean)
    (hprovides : known.Provides p types noted missing whole)
    (hmatch : known.Matches missing s.scope)
    (hbody : ∀ s₁ : State, known.Matches missing s₁.scope →
      (Stmt.executeBlock (p.host sink n) body s₁.enter).Meets
        (fun flow s' => known.child.leave.Matches missing s'.scope.leave ∧
          Flow.Fits missing result (Stmt.blockReturns body) flow)
        (p.Excused sink noted missing (.block body) s₁.enter)) :
    (Eval.loop (condition.evaluateCondition (p.host sink n))
        (Eval.inChild (Stmt.executeBlock (p.host sink n) body)) n s).Meets
      (fun flow s' => known.Matches missing s'.scope ∧ Flow.Fits missing result false flow)
      (p.Excused sink noted missing (.stmt (.whileLoop condition body span)) s) := by
  have hc : ∀ s : State, known.Matches missing s.scope →
      (condition.evaluateCondition (p.host sink n) s).Meets
        (fun holds s₁ => if holds then known.Matches missing s₁.scope ∧
            p.Ends sink (fun host => condition.evaluate host) s (.boolean true) s₁
          else known.Matches missing s₁.scope ∧ Flow.Fits missing result false none)
        (p.Excused sink noted missing (.stmt (.whileLoop condition body span)) s) := by
    intro s hmatch
    have hclash : ∀ s₁, p.Ends sink (fun host => condition.evaluate host) s .nil s₁ →
        p.Clash sink (.stmt (.whileLoop condition body span)) s
          (Value.mismatch "Boolean" .nil condition.span) := fun _ hnil => .whileCondition hnil
    have hcondition' := Expr.conditionSound hcalls hcondition hprovides hmatch
      (fun _ _ => ⟨_, _, .whileCondition⟩) hclash
    refine hcondition'.mono ?_ fun _ he => he
    rintro holds s₁ - ⟨hmatch₁, hends⟩
    cases holds with
    | true => exact ⟨hmatch₁, hends⟩
    | false => exact ⟨hmatch₁, rfl⟩
  refine Outcome.Meets.loop hc ?_ n s hmatch
  rintro s s₁ hmatch - ⟨hmatch₁, hends⟩
  have hb := (hbody s₁ hmatch₁).within (.stmt (.whileLoop condition body span)) s
    fun _ _ => ⟨_, _, .whileBody hends⟩
  have hchild := Stmt.childSound hb fun h => absurd h Bool.false_ne_true
  refine hchild.mono ?_ fun _ he => he
  rintro flow s₂ - ⟨hmatch₂, hfits⟩
  cases flow with
  | some v => exact ⟨hmatch₂, hfits⟩
  | none =>
    refine ⟨hmatch₂, ?_⟩
    intro hround e he
    exact he.of_step fun _ _ => ⟨_, _, .again hends ⟨n, hround⟩⟩

mutual

/-- **Execution is sound**, if calls are. -/
theorem Stmt.sound (hcalls : p.CallsSound sink types noted missing whole n) :
    ∀ (stmt : Stmt) {known after : Scope} {s : State},
      Stmt.Typed types noted missing result known stmt after →
      known.Provides p types noted missing whole → known.Matches missing s.scope →
      (stmt.execute (p.host sink n) s).Meets
        (fun flow s' => after.Matches missing s'.scope ∧
          Flow.Fits missing result stmt.returns flow)
        (p.Excused sink noted missing (.stmt stmt) s)
  | .expression expr span, known, after, s, htyped, hprovides, hmatch => by
    cases htyped with
    | expression _ hexpr =>
      have he := (Expr.sound hcalls expr hexpr hprovides hmatch).within
        (.stmt (.expression expr span)) s fun _ _ => ⟨_, _, .expression⟩
      rw [Stmt.execute]
      exact he.bind fun _ s₁ _ ⟨_, hmatch₁⟩ => ⟨hmatch₁, rfl⟩
  | .declaration name typeName value binding span, known, after, s, htyped, hprovides, hmatch => by
    cases htyped with
    | declaration hty hadd _ =>
      have hstep : ∀ e, value = some e → ∀ known waiting, ∃ known' waiting',
          p.Step sink ⟨.stmt (.declaration name typeName value binding span), s, known, waiting⟩
            ⟨.expr e, s, known', waiting'⟩ := by
        rintro e rfl known waiting
        exact ⟨_, _, .initial⟩
      have hv := hty.sound hcalls hprovides hmatch _ hstep
      rw [Stmt.execute]
      refine hv.bind ?_
      rintro v s₁ _ ⟨hfits, hmatch₁⟩
      obtain ⟨s₂, hs₂, hmatch₂⟩ := hmatch₁.declare hadd (runVariable name) span rfl rfl hfits
      rw [Eval.bind_of_done hs₂]
      exact ⟨hmatch₂, rfl⟩
  | .assignment receiver value span, known, after, s, htyped, hprovides, hmatch => by
    cases htyped with
    | assigned _ hfound hvalue haccepts hmutable =>
      exact Stmt.assignedSound hcalls hprovides hmatch hfound hvalue haccepts hmutable
    | assignedElement _ hoffset hfound hlist hvalue haccepts hmutable =>
      exact Stmt.assignedElementSound hcalls hprovides hmatch hoffset hfound hlist hvalue haccepts
        hmutable
  | .ifElse condition thenBody elseBody span, known, after, s, htyped, hprovides, hmatch => by
    cases htyped with
    | ifElse hcondition hthen helse =>
      have hclash : ∀ s₁, p.Ends sink (fun host => condition.evaluate host) s .nil s₁ →
          p.Clash sink (.stmt (.ifElse condition thenBody elseBody span)) s
            (Value.mismatch "Boolean" .nil condition.span) := fun _ hnil => .ifCondition hnil
      have hc := Expr.conditionSound hcalls hcondition hprovides hmatch
        (fun _ _ => ⟨_, _, .ifCondition⟩) hclash
      rw [Stmt.execute]
      refine hc.bind ?_
      rintro holds s₁ _ ⟨hmatch₁, hends⟩
      cases holds with
      | true =>
        have hb := (Stmt.blockSound hcalls thenBody hthen (List.cons_ne_nil _ _) hprovides.child
          hmatch₁.child).within (.stmt (.ifElse condition thenBody elseBody span)) s
            fun _ _ => ⟨_, _, .thenBody hends⟩
        exact Stmt.childSound hb fun h => (Bool.and_eq_true_iff.1 h).1
      | false =>
        have hb := (Stmt.blockSound hcalls elseBody helse (List.cons_ne_nil _ _) hprovides.child
          hmatch₁.child).within (.stmt (.ifElse condition thenBody elseBody span)) s
            fun _ _ => ⟨_, _, .elseBody hends⟩
        exact Stmt.childSound hb fun h => (Bool.and_eq_true_iff.1 h).2
  | .switch condition cases span, known, after, s, htyped, hprovides, hmatch => by
    cases htyped with
    | switch hcondition hcases =>
      have hc := (Expr.sound hcalls condition hcondition hprovides hmatch).within
        (.stmt (.switch condition cases span)) s fun _ _ => ⟨_, _, .switchCondition⟩
      rw [Stmt.execute]
      refine hc.bind ?_
      rintro v s₁ hv ⟨_, hmatch₁⟩
      exact (Stmt.casesSound hcalls cases hcases hprovides hmatch₁).within _ _
        fun _ _ => ⟨_, _, .arms ⟨n, hv⟩⟩
  | .whileLoop condition body span, known, after, s, htyped, hprovides, hmatch => by
    cases htyped with
    | whileLoop hcondition hbody =>
      rw [Stmt.execute]
      refine Stmt.loopSound hcalls hcondition hprovides hmatch ?_
      intro s₁ hmatch₁
      exact Stmt.blockSound hcalls body hbody (List.cons_ne_nil _ _) hprovides.child hmatch₁.child
  | .ret value span, known, after, s, htyped, hprovides, hmatch => by
    cases htyped with
    | ret hvalue =>
      have hv := (Expr.sound hcalls value hvalue hprovides hmatch).within
        (.stmt (.ret value span)) s fun _ _ => ⟨_, _, .result⟩
      rw [Stmt.execute]
      exact hv.bind fun _ s₁ _ ⟨hfits, hmatch₁⟩ => ⟨hmatch₁, hfits⟩

/-- A block leaves the frames around it matching. -/
theorem Stmt.blockSound (hcalls : p.CallsSound sink types noted missing whole n) :
    ∀ (block : List Stmt) {known after : Scope} {s : State},
      Stmt.BlockTyped types noted missing result known block after → known.inner ≠ [] →
      known.Provides p types noted missing whole → known.Matches missing s.scope →
      (Stmt.executeBlock (p.host sink n) block s).Meets
        (fun flow s' => known.leave.Matches missing s'.scope.leave ∧
          Flow.Fits missing result (Stmt.blockReturns block) flow)
        (p.Excused sink noted missing (.block block) s)
  | [], known, after, s, htyped, hinner, hprovides, hmatch => ⟨hmatch.leave, rfl⟩
  | stmt :: rest, known, after, s, htyped, hinner, hprovides, hmatch => by
    cases htyped with
    | cons hstmt hrest =>
      have hs := (Stmt.sound hcalls stmt hstmt hprovides hmatch).within (.block (stmt :: rest)) s
        fun _ _ => ⟨_, _, .firstStmt⟩
      obtain ⟨hinner₁, hleave, hprovides₁⟩ := hstmt.frame hinner hprovides
      rw [Stmt.executeBlock]
      refine hs.bind ?_
      rintro flow s₁ hflow ⟨hmatch₁, hfits⟩
      cases flow with
      | some v => exact ⟨hleave ▸ hmatch₁.leave, hfits⟩
      | none =>
        have hr := (Stmt.blockSound hcalls rest hrest hinner₁ hprovides₁ hmatch₁).within
          (.block (stmt :: rest)) s fun _ _ => ⟨_, _, .nextStmts ⟨n, hflow⟩⟩
        have hreturns : stmt.returns = false := hfits
        rw [Stmt.blockReturns, hreturns, Bool.false_or, ← hleave]
        exact hr

/-- The arms of a switch. -/
theorem Stmt.casesSound (hcalls : p.CallsSound sink types noted missing whole n) :
    ∀ (arms : List Case) {known : Scope} {ty : Ty} {v : Value} {s : State},
      Stmt.CasesTyped types noted missing result known ty arms →
      known.Provides p types noted missing whole → known.Matches missing s.scope →
      (Stmt.executeCases (p.host sink n) v arms s).Meets
        (fun flow s' => known.Matches missing s'.scope ∧
          Flow.Fits missing result (Stmt.casesReturn arms) flow)
        (p.Excused sink noted missing (.cases v arms) s)
  | [], known, ty, v, s, htyped, hprovides, hmatch => by
    cases htyped
  | .mk value body span :: rest, known, ty, v, s, htyped, hprovides, hmatch => by
    cases htyped with
    | last hbody =>
      have hb := (Stmt.blockSound hcalls body hbody (List.cons_ne_nil _ _) hprovides.child
        hmatch.child).within (.cases v [.mk none body span]) s fun _ _ => ⟨_, _, .defaultBody⟩
      rw [Stmt.executeCases_default]
      exact Stmt.childSound hb fun h => (Bool.and_eq_true_iff.1 h).1
    | @cons _ _ _ value _ _ _ hvalue hbody hrest =>
      have hx := (Expr.sound hcalls value hvalue hprovides hmatch).within
        (.cases v (.mk (some value) body span :: rest)) s fun _ _ => ⟨_, _, .armValue⟩
      rw [Stmt.executeCases_value]
      refine hx.bind ?_
      rintro x s₁ hends ⟨_, hmatch₁⟩
      cases hsame : x.same v with
      | true =>
        have hb := (Stmt.blockSound hcalls body hbody (List.cons_ne_nil _ _) hprovides.child
          hmatch₁.child).within (.cases v (.mk (some value) body span :: rest)) s
            fun _ _ => ⟨_, _, .armBody ⟨n, hends⟩ hsame⟩
        exact Stmt.childSound hb fun h => (Bool.and_eq_true_iff.1 h).1
      | false =>
        have hr := (Stmt.casesSound hcalls rest hrest hprovides hmatch₁).within
          (.cases v (.mk (some value) body span :: rest)) s
          fun _ _ => ⟨_, _, .nextArms ⟨n, hends⟩ hsame⟩
        exact hr.mono (fun _ _ _ ⟨hmatch₂, hfits⟩ => ⟨hmatch₂, hfits.mono
          fun h => (Bool.and_eq_true_iff.1 h).2⟩) fun _ he => he

end

end Statements

end ImpTree
