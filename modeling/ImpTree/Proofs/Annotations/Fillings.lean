import ImpTree.Proofs.Annotations.Repeated

/-!
# Every filling comes to the same

What a value does to a slot that holds another one is left open by `Filling`.  The first check of a
program without annotations, and every later one, comes to the same by every filling: no check has
a value for a slot that holds another value.

* `Slot.fill_agrees_iff` — a value that every filling treats alike.
* `Expr.check_agrees`, `Stmt.check_agrees` — a check of a tree with empty slots.
* `Program.analyze_agrees` — **a check of a fresh program comes to the same by every filling**.
* `Program.analyze_settled` — **so does a second check, which changes no slot**.
-/

namespace ImpTree

/-! ## Slots -/

/-- Every filling does the same with a value for a slot that is empty or holds the value already,
and only then. -/
theorem Slot.fill_agrees_iff {α : Type} {slot : Slot α} {a : α} :
    (∀ filling again : Filling, @fill again α slot a = @fill filling α slot a) ↔
      slot = none ∨ slot = some a := by
  constructor
  · intro h
    cases slot with
    | none => exact .inl rfl
    | some b => exact .inr (h .replacing .keeping)
  · rintro (rfl | rfl) filling again
    · simp only [fill_none]
    · simp only [fill_same]

/-! ## Expressions -/

section Expressions

variable (filling again : Filling) {scope : Scope}

namespace Expr

/-- The end of a check puts the same into an empty slot by every filling. -/
theorem settle_agrees (verdict : Except Error Ty) (build : Slot Ty → Expr) :
    @settle again verdict none build = @settle filling verdict none build := by
  cases verdict with
  | ok ty => simp only [settle, Slot.fill_none]
  | error e => rfl

mutual

/-- A check of an expression with empty slots comes to the same by every filling. -/
theorem check_agrees : ∀ e : Expr, @check again scope e.erase = @check filling scope e.erase
  | .literal value span _ => by
    simp only [erase, check, settle_agrees filling again]
  | .group inner span _ => by
    simp only [erase, check, check_agrees inner, settle_agrees filling again]
  | .binary op left right span _ => by
    simp only [erase, check, check_agrees left, check_agrees right, settle_agrees filling again]
  | .var name _ span _ => by
    simp only [erase, check, Slot.fill_none, settle_agrees filling again]
  | .element name offset _ span _ => by
    simp only [erase, check, check_agrees offset, Slot.fill_none, settle_agrees filling again]
  | .call name arguments _ span _ => by
    simp only [erase, check, checkArguments_agrees arguments, Slot.fill_none,
      settle_agrees filling again]
  | .list elements span _ => by
    simp only [erase, check, checkElements_agrees elements, settle_agrees filling again]

/-- So does a check of arguments. -/
theorem checkArguments_agrees : ∀ (es : List Expr) {parameters : List Ty},
    @checkArguments again scope (eraseAll es) parameters =
      @checkArguments filling scope (eraseAll es) parameters
  | [], _ => by
    rw [eraseAll, @checkArguments.eq_def again, @checkArguments.eq_def filling]
  | e :: rest, [] => rfl
  | e :: rest, parameter :: parameters => by
    simp only [eraseAll, checkArguments, check_agrees e, checkArguments_agrees rest]

/-- So does a check of the elements of a list. -/
theorem checkElements_agrees : ∀ (es : List Expr) {expected : Option Ty},
    @checkElements again scope expected (eraseAll es) =
      @checkElements filling scope expected (eraseAll es)
  | [], _ => rfl
  | e :: rest, expected => by
    simp only [eraseAll, checkElements, check_agrees e, checkElements_agrees rest]

end

/-- A slot that holds another type shows the filling. -/
example :
    let e := literal (.integer 1) .nowhere (some .string)
    (@check .keeping .initial e).node.ty = some .string ∧
      (@check .replacing .initial e).node.ty = some .integer :=
  ⟨rfl, rfl⟩

/-- A check of a condition with empty slots comes to the same by every filling. -/
theorem checkCondition_agrees (condition : Expr) :
    @checkCondition again scope condition.erase =
      @checkCondition filling scope condition.erase := by
  simp only [checkCondition, check_agrees filling again]

end Expr

end Expressions

/-! ## Statements -/

section Statements

variable (filling again : Filling) {types : TypeNames} {expected : Option Ty}

/-- A check of a declaration with empty slots comes to the same by every filling. -/
theorem declarationTy_agrees {scope : Scope} {name : String} {typeName : Option String}
    {span : Span} (value : Option Expr) :
    @declarationTy again types scope name typeName (value.map Expr.erase) span =
      @declarationTy filling types scope name typeName (value.map Expr.erase) span := by
  cases value with
  | none => rfl
  | some expr => simp only [Option.map_some, declarationTy, Expr.check_agrees filling again]

namespace Stmt

mutual

/-- A check of a statement with empty slots comes to the same by every filling. -/
theorem check_agrees : ∀ (stmt : Stmt) {scope : Scope},
    @check again types expected stmt.erase scope = @check filling types expected stmt.erase scope
  | .expression expr span, scope => by
    simp only [erase, check, Expr.check_agrees filling again]
  | .declaration name typeName value _ span, scope => by
    simp only [erase, check, declarationTy_agrees filling again, Slot.fill_none]
  | .assignment receiver value span, scope => by
    simp only [erase, check, Expr.check_agrees filling again]
  | .ifElse condition thenBody elseBody span, scope => by
    simp only [erase, check, Expr.checkCondition_agrees filling again,
      checkBlock_agrees thenBody, checkBlock_agrees elseBody]
  | .switch condition cases span, scope => by
    simp only [erase, check, Expr.check_agrees filling again, checkCases_agrees cases]
  | .whileLoop condition body span, scope => by
    simp only [erase, check, Expr.checkCondition_agrees filling again, checkBlock_agrees body]
  | .ret value span, scope => by
    simp only [erase, check, Expr.check_agrees filling again]

/-- So does a check of a block. -/
theorem checkBlock_agrees : ∀ (block : List Stmt) {scope : Scope},
    @checkBlock again types expected (eraseBlock block) scope =
      @checkBlock filling types expected (eraseBlock block) scope
  | [], _ => rfl
  | stmt :: rest, scope => by
    simp only [eraseBlock, checkBlock, check_agrees stmt, checkBlock_agrees rest]

/-- So does a check of the arms of a switch. -/
theorem checkCases_agrees : ∀ (cases : List Case) {scope : Scope} {ty : Ty},
    @checkCases again types expected scope ty (eraseCases cases) =
      @checkCases filling types expected scope ty (eraseCases cases)
  | [], _, _ => rfl
  | arm :: rest, scope, ty => by
    simp only [eraseCases, checkCases, caseCheck_agrees arm, checkCases_agrees rest]

/-- So does a check of one arm. -/
theorem caseCheck_agrees : ∀ (arm : Case) {scope : Scope} {ty : Ty} {isLast : Bool},
    @Case.check again types expected scope ty isLast arm.erase =
      @Case.check filling types expected scope ty isLast arm.erase
  | .mk (some value) body span, scope, ty, isLast => by
    simp only [Case.erase, Option.map_some, Case.check, Expr.check_agrees filling again,
      checkBlock_agrees body]
  | .mk none body span, scope, ty, isLast => by
    simp only [Case.erase, Option.map_none, Case.check, checkBlock_agrees body]

end

end Stmt

end Statements

/-! ## Programs -/

section Programs

variable (filling again : Filling) {types : TypeNames}

/-- A check of a global with empty slots comes to the same by every filling. -/
theorem Global.check_agrees (g : Global) (scope : Scope) :
    @Global.check again types g.erase scope = @Global.check filling types g.erase scope := by
  simp only [erase, check, declarationTy_agrees filling again, Slot.fill_none]

/-- The checks of globals with empty slots come to the same by every filling. -/
theorem Global.each_check_agrees : ∀ (gs : List Global) (scope : Scope),
    Checked.each (@Global.check again types) (gs.map erase) scope =
      Checked.each (@Global.check filling types) (gs.map erase) scope
  | [], _ => rfl
  | g :: rest, scope => by
    simp only [List.map_cons, Checked.each, check_agrees filling again, each_check_agrees rest]

namespace FunctionDef

/-- A declaration of a function with an empty slot comes to the same by every filling. -/
theorem declare_agrees (f : FunctionDef) (index : Nat) (scope : Scope) :
    @declare again types index f.erase scope = @declare filling types index f.erase scope := by
  simp only [erase, declare, Slot.fill_none]

/-- So do declarations of functions. -/
theorem declareAll_agrees : ∀ (fs : List FunctionDef) (index : Nat) (scope : Scope),
    @declareAll again types index (fs.map erase) scope =
      @declareAll filling types index (fs.map erase) scope
  | [], _, _ => rfl
  | f :: rest, index, scope => by
    simp only [List.map_cons, declareAll, declare_agrees filling again,
      declareAll_agrees rest]

end FunctionDef

/-- What comes before the bodies of a program with empty slots comes to the same by every
filling. -/
theorem Program.declare_agrees (p : Program) :
    @declare again types p.erase = @declare filling types p.erase := by
  simp only [erase, declare, Global.each_check_agrees filling again,
    FunctionDef.declareAll_agrees filling again]

namespace Analyzer

variable {a : Analyzer} {scope : Scope}

/-- A check of a body with empty slots comes to the same by every filling. -/
theorem checkFunction_agrees {f : FunctionDef} (hf : Stmt.BlockFresh f.body)
    (binding : FunctionBinding) :
    @checkFunction again a scope f binding = @checkFunction filling a scope f binding := by
  have hbody : ∀ {expected : Option Ty} {scope : Scope},
      @Stmt.checkBlock again a.types expected f.body scope =
        @Stmt.checkBlock filling a.types expected f.body scope := by
    rw [← hf]
    exact Stmt.checkBlock_agrees filling again f.body
  simp only [checkFunction, hbody]

/-- So do checks of bodies. -/
theorem checkFunctions_agrees : ∀ {fs : List FunctionDef} (bindings : List FunctionBinding)
    {a : Analyzer}, (∀ f ∈ fs, Stmt.BlockFresh f.body) →
    @checkFunctions again a scope fs bindings = @checkFunctions filling a scope fs bindings
  | [], bindings, a, _ => by
    rw [@checkFunctions.eq_def again, @checkFunctions.eq_def filling]
  | f :: rest, [], a, _ => rfl
  | f :: rest, binding :: bindings, a, h => by
    obtain ⟨hf, hrest⟩ := List.forall_mem_cons.1 h
    simp only [checkFunctions, checkFunction_agrees filling again hf,
      checkFunctions_agrees bindings hrest]

end Analyzer

end Programs

/-! ### Whole programs -/

/-- Declarations of functions change no body. -/
theorem FunctionDef.map_body_declareAll [Filling] {types : TypeNames} :
    ∀ (fs : List FunctionDef) (index : Nat) (scope : Scope),
    (declareAll types index fs scope).node.map body = fs.map body
  | [], _, _ => rfl
  | f :: rest, index, scope => by
    have hf : (f.declare types index scope).node.body = f.body := by
      rw [declare]
      split <;> rfl
    rw [declareAll]
    refine Checked.node_andThen (List.map body) (congrArg (· :: rest.map body) hf)
      fun declared => ?_
    have hrest : (declareAll types (index + 1) rest declared.1).node.map body = rest.map body :=
      map_body_declareAll rest (index + 1) declared.1
    exact Checked.node_andThen (List.map body) (congrArg₂ List.cons hf hrest)
      fun _ => congrArg₂ List.cons hf hrest

namespace Program

/-- What comes before the bodies changes no body. -/
theorem map_body_declare [Filling] {types : TypeNames} (p : Program) :
    (p.declare types).node.functions.map FunctionDef.body =
      p.functions.map FunctionDef.body := by
  rw [declare]
  split
  · rfl
  · exact Checked.node_andThen (fun q : Program => q.functions.map FunctionDef.body) rfl
      fun scope => FunctionDef.map_body_declareAll p.functions 0 scope

/-- The bodies of a fresh program are fresh when they are checked. -/
theorem IsFresh.body_of_declare [Filling] {types : TypeNames} {p : Program} (h : p.IsFresh)
    {f : FunctionDef} (hf : f ∈ (p.declare types).node.functions) : Stmt.BlockFresh f.body := by
  have hbody := List.mem_map_of_mem (f := FunctionDef.body) hf
  rw [map_body_declare] at hbody
  obtain ⟨f₀, hf₀, hsame⟩ := List.mem_map.1 hbody
  rw [← hsame]
  exact (h.function hf₀).1

variable {types : TypeNames} {p : Program}

/-- **The check of a fresh program comes to the same by every filling**, in its verdict and in what
it leaves in every slot. -/
theorem analyze_agrees (filling again : Filling) (h : p.IsFresh) :
    @analyze again types p = @analyze filling types p := by
  have hdeclare : @declare again types p = @declare filling types p := by
    rw [← h]
    exact declare_agrees filling again p
  simp only [analyze_parts, hdeclare, Checked.andThen]
  split
  · have hbodies : ∀ f ∈ (@declare filling types p).node.functions, Stmt.BlockFresh f.body :=
      fun _ hf => @IsFresh.body_of_declare filling types p h _ hf
    rw [Analyzer.checkFunctions_agrees filling again _ hbodies]
  · rfl

/-- **A second check of a fresh program comes to the same by every filling, and changes no
slot**: whether the first check passed or failed, the second has no value for a slot that holds
another one. -/
theorem analyze_settled (filling again : Filling) (h : p.IsFresh) :
    @analyze again types (@analyze filling types p).node = @analyze filling types p := by
  -- by replacing, too, the first check leaves what it leaves, and the latest value is settled
  rw [← analyze_agrees filling .replacing h]
  exact @analyze_repeats again .replacing types (Filling.replacing_settles again) p

end Program

end ImpTree
