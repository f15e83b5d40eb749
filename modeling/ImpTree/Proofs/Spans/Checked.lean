import ImpTree.Analysis
import ImpTree.Proofs.Spans.Steps

/-!
# Checks of trees at other places

A check of a tree whose spans are replaced by their images does what the check of the tree does: the
annotations are the same, and an error points at the image of its place.

* `Checked.mapSpans` — the outcome of a check, moved.
* `Expr.check_mapSpans`, `Stmt.check_mapSpans` — expressions and statements.
* `Analyzer.analyze_mapSpans` — **whole programs**, whatever the checker has checked before.
-/

namespace ImpTree

/-! ## Checks that are moved -/

namespace Checked

variable {ν μ α β τ : Type} {σ : Span → Span}

/-- The outcome of a check, with the node and the place of an error moved. -/
def mapSpans (σ : Span → Span) (move : ν → ν) (c : Checked ν α) : Checked ν α :=
  ⟨move c.node, c.verdict.mapError (Error.mapSpan σ)⟩

@[simp]
theorem mapSpans_done (move : ν → ν) (node : ν) (verdict : Except Error α) :
    (done node verdict).mapSpans σ move =
      done (move node) (verdict.mapError (Error.mapSpan σ)) := rfl

/-- Two steps of a check are moved if both are. -/
theorem andThen_mapSpans {move : ν → ν} {move' : μ → μ} {c : Checked ν α} {build build' : ν → μ}
    {next next' : ν → α → Checked μ β} (hbuild : ∀ node, build' (move node) = move' (build node))
    (hnext : ∀ node a, next' (move node) a = (next node a).mapSpans σ move') :
    (c.mapSpans σ move).andThen build' next' = (c.andThen build next).mapSpans σ move' := by
  obtain ⟨node, verdict⟩ := c
  cases verdict with
  | ok a => exact hnext node a
  | error e => exact congrArg (fail · (e.mapSpan σ)) (hbuild node)

/-- A check inside a larger node is moved with it. -/
theorem inside_mapSpans {move : ν → ν} {move' : μ → μ} {c : Checked ν α} {build build' : ν → μ}
    (hbuild : ∀ node, build' (move node) = move' (build node)) :
    (c.mapSpans σ move).inside build' = (c.inside build).mapSpans σ move' :=
  congrArg (done · _) (hbuild c.node)

/-- Checks of the nodes of a list are moved if each is. -/
theorem each_mapSpans {check : ν → τ → Checked ν τ} {move : ν → ν}
    (h : ∀ node state, check (move node) state = (check node state).mapSpans σ move) :
    ∀ (nodes : List ν) (state : τ),
      each check (nodes.map move) state = (each check nodes state).mapSpans σ (List.map move) := by
  intro nodes
  induction nodes with
  | nil => exact fun _ => rfl
  | cons node rest ih =>
    intro state
    rw [List.map_cons, each, each, h]
    refine andThen_mapSpans (fun _ => rfl) fun node state => ?_
    rw [ih]
    exact inside_mapSpans fun _ => rfl

end Checked

/-! ## Requirements -/

section Requirements

variable {σ : Span → Span} {scope : Scope} {span : Span}

theorem Ty.requireAccepts_mapSpan (target source : Ty) :
    target.requireAccepts source (σ span) =
      (target.requireAccepts source span).mapError (Error.mapSpan σ) := by
  rw [requireAccepts, requireAccepts]
  split <;> rfl

theorem Ty.requireSame_mapSpan (expected got : Ty) :
    expected.requireSame got (σ span) =
      (expected.requireSame got span).mapError (Error.mapSpan σ) := by
  rw [requireSame, requireSame]
  split <;> rfl

theorem Literal.ty_mapSpan (literal : Literal) :
    literal.ty (σ span) = (literal.ty span).mapError (Error.mapSpan σ) := by
  cases literal with
  | integer n =>
    simp only [Literal.ty]
    split <;> rfl
  | decimal d =>
    simp only [Literal.ty]
    split <;> rfl
  | _ => rfl

theorem Ty.arithmetic_mapSpan (left right : Ty) :
    left.arithmetic right (σ span) =
      (left.arithmetic right span).mapError (Error.mapSpan σ) := by
  rw [arithmetic, arithmetic]
  split
  · rfl
  · split <;> rfl

/-- The type of a result depends on the operands only, and an error points at the operator. -/
theorem BinaryOp.resultTy_mapSpan (op : BinaryOp) (left right : Ty) :
    op.resultTy left right (σ span) =
      (op.resultTy left right span).mapError (Error.mapSpan σ) := by
  cases op with
  | add =>
    simp only [resultTy]
    split
    · rfl
    · exact Ty.arithmetic_mapSpan left right
  | sub | mul | div => exact Ty.arithmetic_mapSpan left right
  | _ =>
    simp only [resultTy, Ty.requireSame_mapSpan (σ := σ), Ty.requireAccepts_mapSpan (σ := σ),
      Except.mapError_bind]
    rfl

theorem Expr.lookupList_mapSpan (name : String) :
    lookupList scope name (σ span) =
      (lookupList scope name span).mapError (Error.mapSpan σ) := by
  rw [lookupList, lookupList, Except.mapError_bind, Scope.findVariable_mapSpan]
  congr 1
  funext found
  split <;> rfl

theorem TypeNames.resolve_mapSpan (types : TypeNames) (name : String) :
    types.resolve name (σ span) = (types.resolve name span).mapError (Error.mapSpan σ) := by
  rw [resolve, resolve]
  split <;> rfl

end Requirements

/-! ## Expressions -/

namespace Expr

variable {σ : Span → Span} {scope : Scope}

@[simp]
theorem isBinary_mapSpans (e : Expr) : (e.mapSpans σ).isBinary = e.isBinary := by cases e <;> rfl

@[simp]
theorem isCall_mapSpans (e : Expr) : (e.mapSpans σ).isCall = e.isCall := by cases e <;> rfl

@[simp]
theorem isPlace_mapSpans (e : Expr) : (e.mapSpans σ).isPlace = e.isPlace := by cases e <;> rfl

/-- The end of a check is moved with its verdict. -/
theorem settle_mapSpans {verdict : Except Error Ty} {slot : Slot Ty} {build build' : Slot Ty → Expr}
    (h : ∀ slot, build' slot = (build slot).mapSpans σ) :
    settle (verdict.mapError (Error.mapSpan σ)) slot build' =
      (settle verdict slot build).mapSpans σ (Expr.mapSpans σ) := by
  cases verdict with
  | ok ty => exact congrArg (Checked.pass · ty) (h _)
  | error e => exact congrArg (Checked.fail · (e.mapSpan σ)) (h _)

/-- The end of a check that passes is moved. -/
theorem settle_ok_mapSpans {ty : Ty} {slot : Slot Ty} {build build' : Slot Ty → Expr}
    (h : ∀ slot, build' slot = (build slot).mapSpans σ) :
    settle (.ok ty) slot build' = (settle (.ok ty) slot build).mapSpans σ (Expr.mapSpans σ) :=
  @settle_mapSpans σ (.ok ty) slot build build' h

mutual

/-- A check of an expression is moved with the expression. -/
theorem check_mapSpans : ∀ e : Expr,
    (e.mapSpans σ).check scope = (e.check scope).mapSpans σ (Expr.mapSpans σ)
  | .literal value span slot => by
    rw [mapSpans, check, check, Literal.ty_mapSpan]
    exact settle_mapSpans fun _ => rfl
  | .group inner span slot => by
    rw [mapSpans, check, check, isBinary_mapSpans, check_mapSpans inner]
    split
    · exact Checked.andThen_mapSpans (fun _ => rfl) fun inner ty =>
        settle_ok_mapSpans fun _ => rfl
    · rfl
  | .binary op left right span slot => by
    rw [mapSpans, check, check, check_mapSpans left, check_mapSpans right]
    refine Checked.andThen_mapSpans (fun _ => rfl) fun left leftTy =>
      Checked.andThen_mapSpans (fun _ => rfl) fun right rightTy => ?_
    rw [BinaryOp.resultTy_mapSpan]
    exact settle_mapSpans fun _ => rfl
  | .var name binding span slot => by
    rw [mapSpans, check, check, Scope.findVariable_mapSpan]
    cases scope.findVariable name span with
    | ok found => exact settle_ok_mapSpans fun _ => rfl
    | error e => rfl
  | .element name offset binding span slot => by
    rw [mapSpans, check, check, check_mapSpans offset]
    refine Checked.andThen_mapSpans (fun _ => rfl) fun offset offsetTy => ?_
    rw [span_mapSpans, Ty.requireSame_mapSpan]
    cases Ty.integer.requireSame offsetTy offset.span with
    | error e => rfl
    | ok _ =>
      simp only [Except.mapError_ok, Except.bind, lookupList_mapSpan]
      cases lookupList scope name span with
      | error e => rfl
      | ok found => exact settle_ok_mapSpans fun _ => rfl
  | .call name arguments binding span slot => by
    rw [mapSpans, check, check, Scope.findFunction_mapSpan, length_mapAllSpans]
    cases scope.findFunction name arguments.length span with
    | error e => rfl
    | ok callee =>
      simp only [Except.mapError_ok]
      rw [checkArguments_mapAllSpans arguments]
      exact Checked.andThen_mapSpans (fun _ => rfl) fun arguments _ =>
        settle_ok_mapSpans fun _ => rfl
  | .list elements span slot => by
    rw [mapSpans, check, check, checkElements_mapAllSpans elements]
    refine Checked.andThen_mapSpans (fun _ => rfl) fun elements ty => ?_
    cases ty with
    | some ty => exact settle_ok_mapSpans fun _ => rfl
    | none => rfl

/-- So is a check of arguments. -/
theorem checkArguments_mapAllSpans : ∀ (es : List Expr) {parameters : List Ty},
    checkArguments scope (mapAllSpans σ es) parameters =
      (checkArguments scope es parameters).mapSpans σ (mapAllSpans σ)
  | [], _ => by
    rw [checkArguments.eq_def, checkArguments.eq_def]
    rfl
  | e :: rest, [] => rfl
  | e :: rest, parameter :: parameters => by
    rw [mapAllSpans, checkArguments, checkArguments, check_mapSpans e]
    refine Checked.andThen_mapSpans (fun _ => rfl) fun e ty => ?_
    rw [span_mapSpans, Ty.requireAccepts_mapSpan]
    cases parameter.requireAccepts ty e.span with
    | error error => rfl
    | ok _ =>
      simp only [Except.mapError_ok]
      rw [checkArguments_mapAllSpans rest]
      exact Checked.inside_mapSpans fun _ => rfl

/-- So is a check of the elements of a list. -/
theorem checkElements_mapAllSpans : ∀ (es : List Expr) {expected : Option Ty},
    checkElements scope expected (mapAllSpans σ es) =
      (checkElements scope expected es).mapSpans σ (mapAllSpans σ)
  | [], _ => rfl
  | e :: rest, expected => by
    rw [mapAllSpans, checkElements, checkElements, check_mapSpans e]
    refine Checked.andThen_mapSpans (fun _ => rfl) fun e ty => ?_
    rw [span_mapSpans, Ty.requireSame_mapSpan]
    cases (expected.getD ty).requireSame ty e.span with
    | error error => rfl
    | ok _ =>
      simp only [Except.mapError_ok]
      rw [checkElements_mapAllSpans rest]
      exact Checked.inside_mapSpans fun _ => rfl

end

end Expr

/-! ## Statements -/

section Statements

variable {σ : Span → Span} {types : TypeNames} {expected : Option Ty} {scope : Scope}

/-- A check of a declaration is moved with its initial value. -/
theorem declarationTy_mapSpans {name : String} {typeName : Option String} {span : Span}
    (value : Option Expr) :
    declarationTy types scope name typeName (value.map (Expr.mapSpans σ)) (σ span) =
      (declarationTy types scope name typeName value span).mapSpans σ
        (Option.map (Expr.mapSpans σ)) := by
  have hdeclared : (typeName.mapM fun typeName => types.resolve typeName (σ span)) =
      (typeName.mapM fun typeName => types.resolve typeName span).mapError (Error.mapSpan σ) := by
    cases typeName with
    | none => rfl
    | some typeName =>
      simp only [Option.mapM_some, TypeNames.resolve_mapSpan]
      cases types.resolve typeName span <;> rfl
  rw [declarationTy, declarationTy, hdeclared]
  cases typeName.mapM fun typeName => types.resolve typeName span with
  | error e => rfl
  | ok declared =>
    cases value with
    | none => cases declared <;> rfl
    | some expr =>
      simp only [Except.mapError_ok, Option.map_some]
      rw [Expr.check_mapSpans]
      refine Checked.andThen_mapSpans (fun _ => rfl) fun expr ty => ?_
      cases declared with
      | none => rfl
      | some declared =>
        simp only [Checked.mapSpans_done, Except.mapError_map, Expr.span_mapSpans,
          Ty.requireAccepts_mapSpan, Option.map_some]

/-- A check of a condition is moved with the condition. -/
theorem Expr.checkCondition_mapSpans (condition : Expr) :
    (condition.mapSpans σ).checkCondition scope =
      (condition.checkCondition scope).mapSpans σ (Expr.mapSpans σ) := by
  rw [checkCondition, checkCondition, check_mapSpans]
  refine Checked.andThen_mapSpans (fun _ => rfl) fun condition ty => ?_
  rw [span_mapSpans, Ty.requireSame_mapSpan]
  rfl

/-- Whether a place is known to be immutable does not depend on spans. -/
theorem Expr.requireMutable_mapSpans (place : Expr) {span : Span} :
    (place.mapSpans σ).requireMutable (σ span) =
      (place.requireMutable span).mapError (Error.mapSpan σ) := by
  cases place with
  | var name binding place ty =>
    cases binding with
    | none => rfl
    | some binding =>
      simp only [mapSpans, requireMutable]
      split <;> rfl
  | element name offset binding place ty =>
    cases binding with
    | none => rfl
    | some binding =>
      simp only [mapSpans, requireMutable]
      split <;> rfl
  | _ => rfl

theorem Ty.requireResult_mapSpan (got : Ty) {valueSpan span : Span} :
    Ty.requireResult expected got (σ valueSpan) (σ span) =
      (Ty.requireResult expected got valueSpan span).mapError (Error.mapSpan σ) := by
  cases expected with
  | none => rfl
  | some result => exact Ty.requireSame_mapSpan result got

namespace Stmt

mutual

/-- A check of a statement is moved with the statement. -/
theorem check_mapSpans : ∀ (stmt : Stmt) {scope : Scope},
    (stmt.mapSpans σ).check types expected scope =
      (stmt.check types expected scope).mapSpans σ (Stmt.mapSpans σ)
  | .expression expr span, scope => by
    rw [mapSpans, check, check, Expr.isCall_mapSpans, Expr.check_mapSpans]
    split
    · exact Checked.andThen_mapSpans (fun _ => rfl) fun _ _ => rfl
    · rfl
  | .declaration name typeName value binding span, scope => by
    rw [mapSpans, check, check, declarationTy_mapSpans]
    refine Checked.andThen_mapSpans (fun _ => rfl) fun value ty => ?_
    rw [Scope.addVariable_mapSpan]
    cases scope.addVariable ⟨name, ty, true⟩ .nil span <;> rfl
  | .assignment receiver value span, scope => by
    rw [mapSpans, check, check, Expr.isPlace_mapSpans, Expr.check_mapSpans, Expr.check_mapSpans]
    split
    · refine Checked.andThen_mapSpans (fun _ => rfl) fun receiver receiverTy =>
        Checked.andThen_mapSpans (fun _ => rfl) fun value valueTy => ?_
      rw [Checked.mapSpans_done, Expr.requireMutable_mapSpans, Expr.span_mapSpans,
        Ty.requireAccepts_mapSpan]
      simp only [Except.mapError_bind]
      rfl
    · rfl
  | .ifElse condition thenBody elseBody span, scope => by
    rw [mapSpans, check, check, Expr.checkCondition_mapSpans, isEmpty_mapBlockSpans,
      checkBlock_mapBlockSpans thenBody, checkBlock_mapBlockSpans elseBody]
    refine Checked.andThen_mapSpans (fun _ => rfl) fun condition _ => ?_
    split
    · rfl
    · exact Checked.andThen_mapSpans (fun _ => rfl) fun thenBody _ =>
        Checked.andThen_mapSpans (fun _ => rfl) fun elseBody _ => rfl
  | .switch condition cases span, scope => by
    rw [mapSpans, check, check, Expr.check_mapSpans]
    refine Checked.andThen_mapSpans (fun _ => rfl) fun condition ty => ?_
    rw [isEmpty_mapCasesSpans, checkCases_mapCasesSpans cases]
    split
    · rfl
    · exact Checked.andThen_mapSpans (fun _ => rfl) fun cases _ => rfl
  | .whileLoop condition body span, scope => by
    rw [mapSpans, check, check, Expr.checkCondition_mapSpans, checkBlock_mapBlockSpans body]
    exact Checked.andThen_mapSpans (fun _ => rfl) fun condition _ =>
      Checked.andThen_mapSpans (fun _ => rfl) fun body _ => rfl
  | .ret value span, scope => by
    rw [mapSpans, check, check, Expr.check_mapSpans]
    refine Checked.andThen_mapSpans (fun _ => rfl) fun value ty => ?_
    rw [Checked.mapSpans_done, Except.mapError_map, Expr.span_mapSpans, Ty.requireResult_mapSpan]
    rfl

/-- So is a check of a block. -/
theorem checkBlock_mapBlockSpans : ∀ (block : List Stmt) {scope : Scope},
    checkBlock types expected (mapBlockSpans σ block) scope =
      (checkBlock types expected block scope).mapSpans σ (mapBlockSpans σ)
  | [], _ => rfl
  | stmt :: rest, scope => by
    rw [mapBlockSpans, checkBlock, checkBlock, check_mapSpans stmt]
    refine Checked.andThen_mapSpans (fun _ => rfl) fun stmt scope => ?_
    rw [checkBlock_mapBlockSpans rest]
    exact Checked.inside_mapSpans fun _ => rfl

/-- So is a check of the arms of a switch. -/
theorem checkCases_mapCasesSpans : ∀ (cases : List Case) {scope : Scope} {ty : Ty},
    checkCases types expected scope ty (mapCasesSpans σ cases) =
      (checkCases types expected scope ty cases).mapSpans σ (mapCasesSpans σ)
  | [], _, _ => rfl
  | arm :: rest, scope, ty => by
    rw [mapCasesSpans, checkCases, checkCases, isEmpty_mapCasesSpans, caseCheck_mapSpans arm]
    refine Checked.andThen_mapSpans (fun _ => rfl) fun arm _ => ?_
    rw [checkCases_mapCasesSpans rest]
    exact Checked.inside_mapSpans fun _ => rfl

/-- So is a check of one arm. -/
theorem caseCheck_mapSpans : ∀ (arm : Case) {scope : Scope} {ty : Ty} {isLast : Bool},
    (arm.mapSpans σ).check types expected scope ty isLast =
      (arm.check types expected scope ty isLast).mapSpans σ (Case.mapSpans σ)
  | .mk (some value) body span, scope, ty, isLast => by
    rw [Case.mapSpans, Option.map_some, Case.check, Case.check, Expr.check_mapSpans]
    split
    · rfl
    · refine Checked.andThen_mapSpans (fun _ => rfl) fun value valueTy => ?_
      rw [Expr.span_mapSpans, Ty.requireSame_mapSpan]
      cases ty.requireSame valueTy value.span with
      | error e => rfl
      | ok _ =>
        simp only [Except.mapError_ok]
        rw [checkBlock_mapBlockSpans body]
        exact Checked.andThen_mapSpans (fun _ => rfl) fun body _ => rfl
  | .mk none body span, scope, ty, isLast => by
    rw [Case.mapSpans, Option.map_none, Case.check, Case.check, checkBlock_mapBlockSpans body]
    split
    · exact Checked.andThen_mapSpans (fun _ => rfl) fun body _ => rfl
    · rfl

end

end Stmt

end Statements

/-! ## Programs -/

section Programs

variable {σ : Span → Span} {types : TypeNames}

/-- The type of a function's result does not depend on spans. -/
theorem FunctionDef.returnTy_mapSpans (f : FunctionDef) :
    (f.mapSpans σ).returnTy types = (f.returnTy types).mapError (Error.mapSpan σ) := by
  rw [returnTy, returnTy, show (f.mapSpans σ).returnTypeName = f.returnTypeName from rfl]
  cases f.returnTypeName with
  | none => rfl
  | some name => exact TypeNames.resolve_mapSpan types name

/-- Whether there is a `main` to start from does not depend on spans. -/
theorem Program.entryPoint_mapSpans (p : Program) :
    (p.mapSpans σ).entryPoint types = (p.entryPoint types).mapError (Error.mapSpan σ) := by
  have hmain : (p.mapSpans σ).functions.find? FunctionDef.isMain =
      (p.functions.find? FunctionDef.isMain).map (FunctionDef.mapSpans σ) := List.find?_map ..
  rw [entryPoint, entryPoint, hmain]
  cases p.functions.find? FunctionDef.isMain with
  | none => rfl
  | some f =>
    simp only [Option.map_some, FunctionDef.returnTy_mapSpans]
    cases f.returnTy types with
    | error e => rfl
    | ok ty => cases ty <;> rfl

/-- A check of a global is moved with the global. -/
theorem Global.check_mapSpans (g : Global) (scope : Scope) :
    (g.mapSpans σ).check types scope = (g.check types scope).mapSpans σ (Global.mapSpans σ) := by
  obtain ⟨name, isMutable, typeName, value, span, binding⟩ := g
  simp only [Global.check, Global.mapSpans, Option.isNone_map]
  split
  · rfl
  · rw [declarationTy_mapSpans]
    refine Checked.andThen_mapSpans (fun _ => rfl) fun value ty => ?_
    rw [Scope.addVariable_mapSpan]
    cases scope.addVariable ⟨name, ty, isMutable⟩ .nil span <;> rfl

namespace FunctionDef

/-- The names of types are resolved one after the other, at the image of the function's place. -/
theorem mapM_resolve_mapSpan (names : List String) (span : Span) :
    (names.mapM fun name => types.resolve name (σ span)) =
      (names.mapM fun name => types.resolve name span).mapError (Error.mapSpan σ) := by
  induction names with
  | nil => rfl
  | cons name rest ih =>
    rw [List.mapM_cons, List.mapM_cons, ih, TypeNames.resolve_mapSpan]
    simp only [Except.mapError_bind]
    rfl

/-- The name and types of a function do not depend on spans. -/
theorem signature_mapSpans (f : FunctionDef) :
    (f.mapSpans σ).signature types = (f.signature types).mapError (Error.mapSpan σ) := by
  rw [signature, signature, show (f.mapSpans σ).parameters = f.parameters from rfl,
    show (f.mapSpans σ).parameterTypeNames = f.parameterTypeNames from rfl]
  split
  · rfl
  · simp only [Except.mapError_bind, returnTy_mapSpans, ← mapM_resolve_mapSpan]
    rfl

/-- The declaration of a function is moved with the function. -/
theorem declare_mapSpans (f : FunctionDef) (index : Nat) (scope : Scope) :
    (f.mapSpans σ).declare types index scope =
      (f.declare types index scope).mapSpans σ (FunctionDef.mapSpans σ) := by
  rw [declare, declare, signature_mapSpans]
  cases f.signature types with
  | error e => rfl
  | ok binding =>
    simp only [Except.mapError_ok, bind, Except.bind]
    rw [show (f.mapSpans σ).span = σ f.span from rfl, Scope.addFunction_mapSpan]
    cases scope.addFunction ⟨binding, .declared index⟩ f.span <;> rfl

/-- So are declarations of functions. -/
theorem declareAll_mapSpans : ∀ (fs : List FunctionDef) (index : Nat) (scope : Scope),
    declareAll types index (fs.map (FunctionDef.mapSpans σ)) scope =
      (declareAll types index fs scope).mapSpans σ (List.map (FunctionDef.mapSpans σ))
  | [], _, _ => rfl
  | f :: rest, index, scope => by
    rw [List.map_cons, declareAll, declareAll, declare_mapSpans]
    refine Checked.andThen_mapSpans (fun _ => rfl) fun f (scope, binding) => ?_
    dsimp only
    rw [declareAll_mapSpans rest]
    exact Checked.andThen_mapSpans (fun _ => rfl) fun rest known => rfl

end FunctionDef

/-- What comes before the bodies is moved with the program. -/
theorem Program.declare_mapSpans (p : Program) :
    (p.mapSpans σ).declare types = (p.declare types).mapSpans σ (Program.mapSpans σ) := by
  rw [Program.declare, Program.declare, entryPoint_mapSpans]
  cases p.entryPoint types with
  | error e => rfl
  | ok _ =>
    have hglobals : Checked.each (Global.check types) (p.globals.map (Global.mapSpans σ)) .initial =
        (Checked.each (Global.check types) p.globals .initial).mapSpans σ
          (List.map (Global.mapSpans σ)) :=
      Checked.each_mapSpans Global.check_mapSpans p.globals .initial
    dsimp only
    rw [Program.mapSpans, hglobals]
    refine Checked.andThen_mapSpans (fun _ => rfl) fun globals scope => ?_
    rw [FunctionDef.declareAll_mapSpans]
    exact Checked.inside_mapSpans fun _ => rfl

/-- The declarations of parameters fail at the image of the function's place. -/
theorem declareParameters_mapSpan (span : Span) : ∀ (names : List String) (tys : List Ty)
    (scope : Scope), declareParameters (σ span) names tys scope =
      (declareParameters span names tys scope).mapError (Error.mapSpan σ) := by
  intro names
  induction names with
  | nil =>
    intro tys scope
    rw [declareParameters.eq_def, declareParameters.eq_def]
    rfl
  | cons name names ih =>
    intro tys scope
    cases tys with
    | nil => rfl
    | cons ty tys =>
      rw [declareParameters, declareParameters, Except.mapError_bind, Scope.addVariable_mapSpan]
      exact congrArg (_ >>= ·) (funext fun scope => ih tys scope)

namespace Analyzer

/-- A check of a body is moved with the function. -/
theorem checkFunction_mapSpans (a : Analyzer) (scope : Scope) (f : FunctionDef)
    (binding : FunctionBinding) :
    a.checkFunction scope (f.mapSpans σ) binding =
      ((a.checkFunction scope f binding).1.mapSpans σ (FunctionDef.mapSpans σ),
        (a.checkFunction scope f binding).2) := by
  rw [checkFunction, checkFunction]
  simp only [FunctionDef.mapSpans]
  rw [declareParameters_mapSpan]
  cases declareParameters f.span f.parameters binding.parameterTypes scope.child with
  | error e => rfl
  | ok inside =>
    simp only [Except.mapError_ok]
    rw [Stmt.checkBlock_mapBlockSpans]
    exact congrArg (·, _) (Checked.andThen_mapSpans (fun _ => rfl) fun body _ => rfl)

/-- So are the checks of bodies. -/
theorem checkFunctions_mapSpans (scope : Scope) : ∀ (fs : List FunctionDef)
    (bindings : List FunctionBinding) (a : Analyzer),
    (a.checkFunctions scope (fs.map (FunctionDef.mapSpans σ)) bindings).1 =
      (a.checkFunctions scope fs bindings).1.mapSpans σ (List.map (FunctionDef.mapSpans σ))
  | [], bindings, a => by
    rw [List.map_nil, checkFunctions.eq_def]
    rfl
  | f :: rest, [], a => rfl
  | f :: rest, binding :: bindings, a => by
    rw [List.map_cons, checkFunctions_cons, checkFunctions_cons, checkFunction_mapSpans]
    refine Checked.andThen_mapSpans (fun _ => rfl) fun f _ => ?_
    rw [checkFunctions_mapSpans scope rest]
    exact Checked.inside_mapSpans fun _ => rfl

/-- **A check is moved with the program**: whatever the checker has checked before, a program whose
spans are replaced gets the annotations of the program, and the error of the program points at the
image of its place. -/
theorem analyze_mapSpans (a : Analyzer) (p : Program) :
    (a.analyze (p.mapSpans σ)).1 = (a.analyze p).1.mapSpans σ (Program.mapSpans σ) := by
  rw [analyze_eq, analyze_eq, Program.declare_mapSpans]
  refine Checked.andThen_mapSpans (fun _ => rfl) fun declared (scope, bindings) => ?_
  show ((a.checkFunctions scope (declared.functions.map (FunctionDef.mapSpans σ)) bindings).1.inside
    _) = _
  rw [checkFunctions_mapSpans]
  exact Checked.inside_mapSpans fun _ => rfl

end Analyzer

end Programs

end ImpTree
