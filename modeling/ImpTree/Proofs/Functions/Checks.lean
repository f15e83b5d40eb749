import ImpTree.Analysis
import ImpTree.Proofs.Scope.Offers

/-!
# Checks do not see where functions stand

A check asks of a function only what it is bound to.  So in two scopes that bind the same functions
in the same way, at whatever positions of their programs these stand, checks leave the same
annotations and come to the same verdict.

* `Callee.SameBindings` — two lists of functions in which every name is bound in the same way.
* `Checked.Agrees` — two checks with the same node and the same error, or with related results.
* `Expr.check_swaps`, `Stmt.check_swaps` — expressions and statements.
* `Analyzer.checkFunction_swaps` — **the body of a function.**
-/

namespace ImpTree

/-! ## Bindings -/

/-- Every name and number of arguments is bound in the same way, or in neither. -/
def Callee.SameBindings (cs cs' : List Callee) : Prop :=
  ∀ name arity,
    (among? cs' name arity).map Callee.binding = (among? cs name arity).map Callee.binding

section Swapped

variable {cs cs' : List Callee} {s s' : Scope}

namespace Scope.Swaps

/-- Variables are found alike. -/
theorem findVariable (h : s.Swaps cs cs' s') (name : String) (span : Span) :
    s'.findVariable name span = s.findVariable name span := by
  rw [Scope.findVariable, Scope.findVariable, h.var?]

/-- Functions are bound alike. -/
theorem findFunction (hsame : Callee.SameBindings cs cs') (h : s.Swaps cs cs' s') (name : String)
    (arity : Nat) (span : Span) :
    (s'.findFunction name arity span).map Callee.binding =
      (s.findFunction name arity span).map Callee.binding := by
  have hfound := hsame name arity
  rw [← h.offers.callee?, ← h.offers'.callee?] at hfound
  rw [Scope.findFunction, Scope.findFunction]
  cases hs : s.callee? name arity with
  | none =>
    rw [hs, Option.map_none, Option.map_eq_none_iff] at hfound
    rw [hfound]
  | some c =>
    rw [hs, Option.map_some, Option.map_eq_some_iff] at hfound
    obtain ⟨c', hs', hbinding⟩ := hfound
    rw [hs']
    exact congrArg Except.ok hbinding

/-- Variables are declared alike. -/
theorem addVariable (h : s.Swaps cs cs' s') (binding : VariableBinding) (value : Value)
    (span : Span) :
    (∃ e, s.addVariable binding value span = .error e ∧
      s'.addVariable binding value span = .error e) ∨
    ∃ t t', s.addVariable binding value span = .ok t ∧ s'.addVariable binding value span = .ok t' ∧
      t.Swaps cs cs' t' := by
  rw [h.eq, addVariable_withCallees]
  cases hadd : s.addVariable binding value span with
  | error e => exact .inl ⟨e, rfl, rfl⟩
  | ok t =>
    obtain ⟨-, rfl⟩ := addVariable_eq_ok.1 hadd
    exact .inr ⟨_, _, rfl, rfl, h.offers.withVariable _, rfl⟩

end Scope.Swaps

/-! ## Checks that agree -/

namespace Checked

variable {ν μ α α' β β' : Type} {R : α → α' → Prop} {R' : β → β' → Prop}

/-- Two checks leave the same node and fail with the same error, or pass with related results. -/
inductive Agrees (R : α → α' → Prop) : Checked ν α → Checked ν α' → Prop where
  /-- Both pass. -/
  | pass {node a a'} (h : R a a') : Agrees R (.pass node a) (.pass node a')
  /-- Both fail. -/
  | fail {node e} : Agrees R (.fail node e) (.fail node e)

namespace Agrees

variable {c : Checked ν α} {c' : Checked ν α'}

/-- One step after the other. -/
theorem andThen {build : ν → μ} {next : ν → α → Checked μ β} {next' : ν → α' → Checked μ β'}
    (hc : c.Agrees R c')
    (hnext : ∀ node a a', R a a' → (next node a).Agrees R' (next' node a')) :
    (c.andThen build next).Agrees R' (c'.andThen build next') := by
  cases hc with
  | pass h => exact hnext _ _ _ h
  | fail => exact .fail

/-- A check inside a larger node. -/
theorem inside {build : ν → μ} (hc : c.Agrees R c') :
    (c.inside build).Agrees R (c'.inside build) := by
  cases hc with
  | pass h => exact .pass h
  | fail => exact .fail

/-- After the same check, steps that agree. -/
theorem after (c : Checked ν α) {build : ν → μ} {next : ν → α → Checked μ β}
    {next' : ν → α → Checked μ β'} (hnext : ∀ node a, (next node a).Agrees R' (next' node a)) :
    (c.andThen build next).Agrees R' (c.andThen build next') := by
  obtain ⟨node, _ | a⟩ := c
  · exact .fail
  · exact hnext node a

/-- Checks whose results are equal are equal. -/
theorem eq {c c' : Checked ν α} (h : c.Agrees Eq c') : c' = c := by
  cases h with
  | pass h => rw [h]
  | fail => rfl

end Agrees

end Checked

/-! ## Expressions -/

namespace Expr

mutual

/-- The check of an expression is the same. -/
theorem check_swaps (hsame : Callee.SameBindings cs cs') (h : s.Swaps cs cs' s') :
    ∀ e : Expr, e.check s' = e.check s
  | literal value span slot => rfl
  | group inner span slot => by
    rw [check, check, check_swaps hsame h inner]
  | binary op left right span slot => by
    rw [check, check, check_swaps hsame h left, check_swaps hsame h right]
  | var name binding span slot => by
    rw [check, check, h.findVariable]
  | element name offset binding span slot => by
    have hlist : lookupList s' name span = lookupList s name span := by
      rw [lookupList, lookupList, h.findVariable]
    rw [check, check, check_swaps hsame h offset, hlist]
  | call name arguments binding span slot => by
    have hfound := h.findFunction hsame name arguments.length span
    rw [check, check]
    cases hs : s.findFunction name arguments.length span with
    | error e =>
      cases hs' : s'.findFunction name arguments.length span with
      | error e' =>
        rw [hs, hs'] at hfound
        cases hfound
        rfl
      | ok c' => rw [hs, hs'] at hfound; cases hfound
    | ok c =>
      cases hs' : s'.findFunction name arguments.length span with
      | error e' => rw [hs, hs'] at hfound; cases hfound
      | ok c' =>
        rw [hs, hs'] at hfound
        have hbinding : c'.binding = c.binding := Except.ok.inj hfound
        simp only [hbinding, checkArguments_swaps hsame h arguments]
  | list elements span slot => by
    rw [check, check, checkElements_swaps hsame h elements]

/-- So are those of arguments. -/
theorem checkArguments_swaps (hsame : Callee.SameBindings cs cs') (h : s.Swaps cs cs' s') :
    ∀ (es : List Expr) (parameters : List Ty),
      checkArguments s' es parameters = checkArguments s es parameters
  | [], _ => rfl
  | _ :: _, [] => rfl
  | e :: rest, parameter :: parameters => by
    rw [checkArguments, checkArguments, check_swaps hsame h e, checkArguments_swaps hsame h rest]

/-- So are those of the elements of a list. -/
theorem checkElements_swaps (hsame : Callee.SameBindings cs cs') (h : s.Swaps cs cs' s') :
    ∀ (es : List Expr) (expected : Option Ty),
      checkElements s' expected es = checkElements s expected es
  | [], _ => rfl
  | e :: rest, expected => by
    rw [checkElements, checkElements, check_swaps hsame h e]
    exact congrArg _ (funext fun item => funext fun ty => by rw [checkElements_swaps hsame h rest])

end

/-- So is that of a condition. -/
theorem checkCondition_swaps (hsame : Callee.SameBindings cs cs') (h : s.Swaps cs cs' s')
    (condition : Expr) :
    condition.checkCondition s' = condition.checkCondition s := by
  rw [checkCondition, checkCondition, check_swaps hsame h]

end Expr

/-! ## Statements -/

section Statements

variable {types : TypeNames} {expected : Option Ty}

/-- The type of a declaration is the same. -/
theorem declarationTy_swaps (hsame : Callee.SameBindings cs cs') (h : s.Swaps cs cs' s')
    (name : String) (typeName : Option String) (value : Option Expr) (span : Span) :
    declarationTy types s' name typeName value span =
      declarationTy types s name typeName value span := by
  cases value with
  | none => rfl
  | some e => simp only [declarationTy, Expr.check_swaps hsame h]

namespace Stmt

mutual

/-- **Checks of a statement agree**, and leave scopes that differ in their functions only. -/
theorem check_swaps (hsame : Callee.SameBindings cs cs') : ∀ (stmt : Stmt) {s s' : Scope},
    s.Swaps cs cs' s' →
    (Stmt.check types expected stmt s).Agrees (Scope.Swaps cs cs')
      (Stmt.check types expected stmt s')
  | .expression expr span, s, s', h => by
    rw [check, check, Expr.check_swaps hsame h]
    split
    · exact .after _ fun _ _ => .pass h
    · exact .fail
  | .declaration name typeName value binding span, s, s', h => by
    rw [check, check, declarationTy_swaps hsame h]
    refine .after _ fun value ty => ?_
    rcases h.addVariable ⟨name, ty, true⟩ .nil span with ⟨e, hs, hs'⟩ | ⟨t, t', hs, hs', ht⟩
    · rw [hs, hs']
      exact .fail
    · rw [hs, hs']
      exact .pass ht
  | .assignment receiver value span, s, s', h => by
    rw [check, check, Expr.check_swaps hsame h, Expr.check_swaps hsame h]
    split
    · refine .after _ fun receiver receiverTy => .after _ fun value valueTy => ?_
      cases receiver.requireMutable span with
      | error e => exact .fail
      | ok _ =>
        cases receiverTy.requireAccepts valueTy value.span with
        | error e => exact .fail
        | ok _ => exact .pass h
    · exact .fail
  | .ifElse condition thenBody elseBody span, s, s', h => by
    rw [check, check, Expr.checkCondition_swaps hsame h]
    refine .after _ fun condition _ => ?_
    split
    · exact .fail
    · exact (checkBlock_swaps hsame thenBody h.child).andThen fun thenBody _ _ _ =>
        (checkBlock_swaps hsame elseBody h.child).andThen fun elseBody _ _ _ => .pass h
  | .switch condition cases span, s, s', h => by
    rw [check, check, Expr.check_swaps hsame h]
    refine .after _ fun condition ty => ?_
    split
    · exact .fail
    · rw [checkCases_swaps hsame cases h]
      exact .after _ fun _ _ => .pass h
  | .whileLoop condition body span, s, s', h => by
    rw [check, check, Expr.checkCondition_swaps hsame h]
    exact .after _ fun condition _ =>
      (checkBlock_swaps hsame body h.child).andThen fun body _ _ _ => .pass h
  | .ret value span, s, s', h => by
    rw [check, check, Expr.check_swaps hsame h]
    refine .after _ fun value ty => ?_
    cases Ty.requireResult expected ty value.span span with
    | error e => exact .fail
    | ok _ => exact .pass h

/-- So do checks of a block. -/
theorem checkBlock_swaps (hsame : Callee.SameBindings cs cs') : ∀ (block : List Stmt)
    {s s' : Scope}, s.Swaps cs cs' s' →
    (Stmt.checkBlock types expected block s).Agrees (Scope.Swaps cs cs')
      (Stmt.checkBlock types expected block s')
  | [], _, _, h => .pass h
  | stmt :: rest, s, s', h => by
    rw [checkBlock, checkBlock]
    exact (check_swaps hsame stmt h).andThen fun stmt t t' ht =>
      (checkBlock_swaps hsame rest ht).inside

/-- So does the check of an arm of a switch. -/
theorem caseCheck_swaps (hsame : Callee.SameBindings cs cs') : ∀ (arm : Case) {s s' : Scope}
    {ty : Ty} {isLast : Bool},
    s.Swaps cs cs' s' →
      Case.check types expected s' ty isLast arm = Case.check types expected s ty isLast arm
  | .mk (some value) body span, s, s', ty, isLast, h => by
    refine Checked.Agrees.eq ?_
    rw [Case.check, Case.check, Expr.check_swaps hsame h]
    split
    · exact .fail
    · refine .after _ fun value valueTy => ?_
      cases ty.requireSame valueTy value.span with
      | error e => exact .fail
      | ok _ => exact (checkBlock_swaps hsame body h.child).andThen fun body _ _ _ => .pass rfl
  | .mk none body span, s, s', ty, isLast, h => by
    refine Checked.Agrees.eq ?_
    rw [Case.check, Case.check]
    split
    · exact (checkBlock_swaps hsame body h.child).andThen fun body _ _ _ => .pass rfl
    · exact .fail

/-- So do those of the arms of a switch. -/
theorem checkCases_swaps (hsame : Callee.SameBindings cs cs') : ∀ (arms : List Case) {s s' : Scope}
    {ty : Ty}, s.Swaps cs cs' s' →
    Stmt.checkCases types expected s' ty arms = Stmt.checkCases types expected s ty arms
  | [], _, _, _, _ => rfl
  | arm :: rest, s, s', ty, h => by
    rw [checkCases, checkCases, caseCheck_swaps hsame arm h, checkCases_swaps hsame rest h]

end

end Stmt

/-! ## Bodies -/

/-- Parameters are declared alike. -/
theorem declareParameters_swaps (span : Span) : ∀ (names : List String) (tys : List Ty)
    {s s' : Scope}, s.Swaps cs cs' s' →
      (∃ e, declareParameters span names tys s = .error e ∧
        declareParameters span names tys s' = .error e) ∨
      ∃ t t', declareParameters span names tys s = .ok t ∧
        declareParameters span names tys s' = .ok t' ∧ t.Swaps cs cs' t'
  | name :: names, ty :: tys, s, s', h => by
    rw [declareParameters, declareParameters]
    rcases h.addVariable ⟨name, ty, true⟩ .nil span with ⟨e, hs, hs'⟩ | ⟨t, t', hs, hs', ht⟩
    · rw [hs, hs']
      exact .inl ⟨e, rfl, rfl⟩
    · rw [hs, hs']
      exact declareParameters_swaps span names tys ht
  | [], _, s, s', h => .inr ⟨s, s', by rw [declareParameters.eq_def], by
      rw [declareParameters.eq_def], h⟩
  | _ :: _, [], s, s', h => .inr ⟨s, s', rfl, rfl, h⟩

/-- **The check of a body is the same** in two scopes that bind the same functions. -/
theorem Analyzer.checkFunction_swaps (hsame : Callee.SameBindings cs cs') (h : s.Swaps cs cs' s')
    (a : Analyzer) (f : FunctionDef) (binding : FunctionBinding) :
    (a.checkFunction s' f binding).1 = (a.checkFunction s f binding).1 := by
  rw [checkFunction, checkFunction]
  rcases declareParameters_swaps f.span f.parameters binding.parameterTypes h.child with
    ⟨e, hs, hs'⟩ | ⟨t, t', hs, hs', ht⟩
  · rw [hs, hs']
  · rw [hs, hs']
    refine Checked.Agrees.eq ?_
    dsimp only
    exact (Stmt.checkBlock_swaps hsame f.body ht).andThen fun body _ _ _ => .pass rfl

end Statements

end Swapped

end ImpTree
