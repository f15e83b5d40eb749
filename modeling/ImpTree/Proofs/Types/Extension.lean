import ImpTree.Analysis
import ImpTree.Proofs.Typing.Values
import ImpTree.Tree.Build
import ImpTree.Proofs.Types.Names

/-!
# Checks with more type names

A check asks of a type name only what it stands for.  So a program that is accepted is accepted with
the same annotations where more names stand for types, as long as those that stood for a type stand
for the same one.

* `TypeNames.Extends` — everything that a name stands for, it stands for with more names, too.
* `Except.KeptBy`, `Checked.KeptBy` — if one computation or check succeeds, another does the same.
* `Stmt.check_kept`, `Program.declare_kept` — statements and declarations.
* `Analyzer.analyze_kept` — **an accepted program stays accepted**, with the same annotations.
* `TypeNames.names_correspond` — **type names and types correspond.**
-/

namespace ImpTree

/-! ## Names -/

/-- Everything that a name stands for, it stands for with the other names, too. -/
def TypeNames.Extends (types' types : TypeNames) : Prop :=
  ∀ name ty, types.lookup name = some ty → types'.lookup name = some ty

/-- A registration under a name that stood for nothing takes no meaning away. -/
theorem TypeNames.extends_register {types : TypeNames} {name : String} {ty : Ty}
    (hnew : types.contains name = false) : (types.register name ty).Extends types := by
  intro other t h
  rw [lookup_eq_some_iff] at h ⊢
  exact h.register hnew

/-! ## Results that are kept -/

namespace Except

variable {α β : Type} {x x' : Except Error α}

/-- If the first computation has a result, the second has the same. -/
def KeptBy (x x' : Except Error α) : Prop := ∀ a, x = .ok a → x' = .ok a

theorem KeptBy.refl (x : Except Error α) : KeptBy x x := fun _ h => h

theorem KeptBy.error {e : Error} : KeptBy (.error e) x' := fun _ h => nomatch h

/-- One computation after the other. -/
theorem KeptBy.bind {f f' : α → Except Error β} (hx : KeptBy x x')
    (hf : ∀ a, KeptBy (f a) (f' a)) : KeptBy (x >>= f) (x' >>= f') := by
  intro b h
  obtain ⟨a, ha, hb⟩ := Except.bind_ok_inv h
  rw [hx a ha]
  exact hf a b hb

/-- The results for all elements of a list. -/
theorem KeptBy.mapM {f f' : α → Except Error β} (hf : ∀ a, KeptBy (f a) (f' a)) (as : List α) :
    KeptBy (as.mapM f) (as.mapM f') := by
  induction as with
  | nil => exact .refl _
  | cons a as ih =>
    rw [List.mapM_cons, List.mapM_cons]
    exact (hf a).bind fun b => ih.bind fun bs => .refl _

end Except

namespace Checked

variable {ν μ σ α β : Type} {c c' : Checked ν α}

/-- If the first check passes, the second leaves the same node and the same result. -/
def KeptBy (c c' : Checked ν α) : Prop := ∀ a, c.verdict = .ok a → c' = c

namespace KeptBy

theorem refl (c : Checked ν α) : c.KeptBy c := fun _ _ => rfl

/-- A check that fails promises nothing. -/
theorem fail {node : ν} {e : Error} : (Checked.fail node e).KeptBy c' := fun _ h => nomatch h

/-- One step after the other. -/
theorem andThen {build : ν → μ} {next next' : ν → α → Checked μ β} (hc : c.KeptBy c')
    (hnext : ∀ node a, (next node a).KeptBy (next' node a)) :
    (c.andThen build next).KeptBy (c'.andThen build next') := by
  rcases c.eq_pass_or_eq_fail with ⟨a, hpass⟩ | ⟨e, hfail⟩
  · rw [hc a (congrArg verdict hpass), hpass, andThen_pass, andThen_pass]
    exact hnext _ _
  · rw [hfail, andThen_fail]
    exact fail

/-- The same step, and then another one. -/
theorem after (c : Checked ν α) {build : ν → μ} {next next' : ν → α → Checked μ β}
    (hnext : ∀ node a, (next node a).KeptBy (next' node a)) :
    (c.andThen build next).KeptBy (c.andThen build next') :=
  (refl c).andThen hnext

/-- A check inside a larger node. -/
theorem inside {build : ν → μ} (hc : c.KeptBy c') : (c.inside build).KeptBy (c'.inside build) :=
  fun a h => congrArg (Checked.inside · build) (hc a h)

/-- The same check for every node of a list. -/
theorem each {check check' : ν → σ → Checked ν σ}
    (h : ∀ node state, (check node state).KeptBy (check' node state)) :
    ∀ (nodes : List ν) (state : σ),
      (Checked.each check nodes state).KeptBy (Checked.each check' nodes state)
  | [], state => refl _
  | node :: rest, state => by
    rw [Checked.each, Checked.each]
    exact (h node state).andThen fun node state => (each h rest state).inside

end KeptBy

end Checked

section Extended

variable {types types' : TypeNames}

theorem TypeNames.Extends.resolve (h : types'.Extends types) (name : String) (span : Span) :
    Except.KeptBy (types.resolve name span) (types'.resolve name span) :=
  fun ty hty => resolve_eq_ok_iff.2 (h name ty (resolve_eq_ok_iff.1 hty))

/-! ## Statements -/

/-- The type of a declaration. -/
theorem declarationTy_kept (h : types'.Extends types) (scope : Scope) (name : String)
    (typeName : Option String) (value : Option Expr) (span : Span) :
    (declarationTy types scope name typeName value span).KeptBy
      (declarationTy types' scope name typeName value span) := by
  have hdeclared : Except.KeptBy (typeName.mapM fun name => types.resolve name span)
      (typeName.mapM fun name => types'.resolve name span) := by
    cases typeName with
    | none => exact .refl _
    | some name => exact (h.resolve name span).bind fun _ => .refl _
  rw [declarationTy, declarationTy]
  cases hresolved : typeName.mapM fun name => types.resolve name span with
  | error e => exact .fail
  | ok declared =>
    rw [hdeclared declared hresolved]
    exact .refl _

namespace Stmt

variable {expected : Option Ty}

mutual

/-- **A statement that passes its check** passes it with more names, too. -/
theorem check_kept (h : types'.Extends types) : ∀ (stmt : Stmt) (scope : Scope),
    (Stmt.check types expected stmt scope).KeptBy (Stmt.check types' expected stmt scope)
  | .expression expr span, scope => by
    rw [check, check]
    exact .refl _
  | .declaration name typeName value binding span, scope => by
    rw [check, check]
    exact (declarationTy_kept h scope name typeName value span).andThen fun value ty => .refl _
  | .assignment receiver value span, scope => by
    rw [check, check]
    exact .refl _
  | .ifElse condition thenBody elseBody span, scope => by
    rw [check, check]
    refine .after _ fun condition _ => ?_
    split
    · exact .fail
    · exact (checkBlock_kept h thenBody scope.child).andThen fun thenBody _ =>
        (checkBlock_kept h elseBody scope.child).andThen fun elseBody _ => .refl _
  | .switch condition cases span, scope => by
    rw [check, check]
    refine .after _ fun condition ty => ?_
    split
    · exact .fail
    · exact (checkCases_kept h scope ty cases).andThen fun cases _ => .refl _
  | .whileLoop condition body span, scope => by
    rw [check, check]
    exact .after _ fun condition _ =>
      (checkBlock_kept h body scope.child).andThen fun body _ => .refl _
  | .ret value span, scope => by
    rw [check, check]
    exact .refl _

/-- So does a block. -/
theorem checkBlock_kept (h : types'.Extends types) : ∀ (block : List Stmt) (scope : Scope),
    (Stmt.checkBlock types expected block scope).KeptBy
      (Stmt.checkBlock types' expected block scope)
  | [], scope => .refl _
  | stmt :: rest, scope => by
    rw [checkBlock, checkBlock]
    exact (check_kept h stmt scope).andThen fun stmt scope => (checkBlock_kept h rest scope).inside

/-- So does an arm of a switch. -/
theorem caseCheck_kept (h : types'.Extends types) (scope : Scope) (ty : Ty) (isLast : Bool) :
    ∀ arm : Case, (Case.check types expected scope ty isLast arm).KeptBy
      (Case.check types' expected scope ty isLast arm)
  | .mk (some value) body span => by
    rw [Case.check, Case.check]
    split
    · exact .fail
    · refine .after _ fun value valueTy => ?_
      cases ty.requireSame valueTy value.span with
      | error e => exact .fail
      | ok _ => exact (checkBlock_kept h body scope.child).andThen fun body _ => .refl _
  | .mk none body span => by
    rw [Case.check, Case.check]
    split
    · exact (checkBlock_kept h body scope.child).andThen fun body _ => .refl _
    · exact .fail

/-- So do the arms of a switch. -/
theorem checkCases_kept (h : types'.Extends types) (scope : Scope) (ty : Ty) :
    ∀ arms : List Case, (Stmt.checkCases types expected scope ty arms).KeptBy
      (Stmt.checkCases types' expected scope ty arms)
  | [] => .refl _
  | arm :: rest => by
    rw [checkCases, checkCases]
    exact (caseCheck_kept h scope ty rest.isEmpty arm).andThen fun arm _ =>
      (checkCases_kept h scope ty rest).inside

end

end Stmt

/-! ## Declarations -/

/-- The check of a global. -/
theorem Global.check_kept (h : types'.Extends types) (g : Global) (scope : Scope) :
    (g.check types scope).KeptBy (g.check types' scope) := by
  rw [check, check]
  split
  · exact .fail
  · exact (declarationTy_kept h scope g.name g.typeName g.value g.span).andThen
      fun value ty => .refl _

namespace FunctionDef

/-- The type of a result. -/
theorem returnTy_kept (h : types'.Extends types) (f : FunctionDef) :
    Except.KeptBy (f.returnTy types) (f.returnTy types') := by
  rw [returnTy, returnTy]
  cases f.returnTypeName with
  | none => exact .refl _
  | some name => exact h.resolve name f.span

/-- The name and types of a function. -/
theorem signature_kept (h : types'.Extends types) (f : FunctionDef) :
    Except.KeptBy (f.signature types) (f.signature types') := by
  rw [signature, signature]
  split
  · exact .refl _
  · exact (Except.KeptBy.mapM (fun name => h.resolve name f.span) f.parameterTypeNames).bind
      fun parameterTypes => (returnTy_kept h f).bind fun returnType => .refl _

/-- The declaration of a function. -/
theorem declare_kept (h : types'.Extends types) (index : Nat) (f : FunctionDef) (scope : Scope) :
    (f.declare types index scope).KeptBy (f.declare types' index scope) := by
  rw [declare, declare]
  cases hsignature : f.signature types with
  | error e => exact .fail
  | ok binding =>
    rw [signature_kept h f binding hsignature]
    exact .refl _

/-- The declarations of functions, one after the other. -/
theorem declareAll_kept (h : types'.Extends types) : ∀ (index : Nat) (fs : List FunctionDef)
    (scope : Scope), (declareAll types index fs scope).KeptBy (declareAll types' index fs scope)
  | _, [], _ => .refl _
  | index, f :: rest, scope => by
    rw [declareAll, declareAll]
    exact (declare_kept h index f scope).andThen fun f (scope, binding) =>
      (declareAll_kept h (index + 1) rest scope).andThen fun rest (scope, bindings) => .refl _

end FunctionDef

/-! ## Programs -/

namespace Program

/-- The requirement on `main`. -/
theorem entryPoint_kept (h : types'.Extends types) (p : Program) :
    Except.KeptBy (p.entryPoint types) (p.entryPoint types') := by
  rw [entryPoint, entryPoint]
  cases p.functions.find? FunctionDef.isMain with
  | none => exact .refl _
  | some main =>
    cases hresult : main.returnTy types with
    | error e =>
      simp only [hresult]
      exact .error
    | ok ty =>
      simp only [hresult, main.returnTy_kept h ty hresult]
      exact .refl _

/-- Everything but the bodies of the functions. -/
theorem declare_kept (h : types'.Extends types) (p : Program) :
    (p.declare types).KeptBy (p.declare types') := by
  rw [declare, declare]
  cases hentry : p.entryPoint types with
  | error e => exact .fail
  | ok _ =>
    rw [entryPoint_kept h p _ hentry]
    exact (Checked.KeptBy.each (Global.check_kept h) p.globals .initial).andThen
      fun globals scope => (FunctionDef.declareAll_kept h 0 p.functions scope).inside

end Program

namespace Analyzer

variable {a a' : Analyzer}

/-- The body of a function. -/
theorem checkFunction_kept (h : a'.types.Extends a.types) (scope : Scope) (f : FunctionDef)
    (binding : FunctionBinding) :
    (a.checkFunction scope f binding).1.KeptBy (a'.checkFunction scope f binding).1 := by
  rw [checkFunction, checkFunction]
  cases declareParameters f.span f.parameters binding.parameterTypes scope.child with
  | error e => exact .fail
  | ok scope => exact (Stmt.checkBlock_kept h f.body scope).andThen fun body _ => .refl _

/-- The bodies of functions, one after the other. -/
theorem checkFunctions_kept : ∀ {a a' : Analyzer}, a'.types.Extends a.types → ∀ (scope : Scope)
    (fs : List FunctionDef) (bindings : List FunctionBinding),
    (a.checkFunctions scope fs bindings).1.KeptBy (a'.checkFunctions scope fs bindings).1
  | _, _, _, _, [], _ => .refl _
  | _, _, _, _, _ :: _, [] => .refl _
  | a, a', h, scope, f :: rest, binding :: bindings => by
    rw [checkFunctions_cons, checkFunctions_cons]
    refine (checkFunction_kept h scope f binding).andThen fun f' _ => Checked.KeptBy.inside ?_
    exact checkFunctions_kept (by simpa using h) scope rest bindings

/-- **An accepted program stays accepted**, with the same annotations, by a checker that knows more
names. -/
theorem analyze_kept (h : a'.types.Extends a.types) (p : Program) :
    (a.analyze p).1.KeptBy (a'.analyze p).1 := by
  rw [analyze_eq, analyze_eq]
  exact (p.declare_kept h).andThen fun declared (scope, bindings) =>
    (checkFunctions_kept h scope declared.functions bindings).inside

end Analyzer

theorem Program.analyze_kept (h : types'.Extends types) (p : Program) :
    (p.analyze types).KeptBy (p.analyze types') :=
  Analyzer.analyze_kept h p

end Extended

/-! ## Names and types -/

namespace TypeNames

/-- **Type names and types correspond.**  As long as free names are registered only, the written
form of a type resolves to the type, and so does every spelling of it, with blanks around names and
inside angle brackets; so types with the same written form are equal.  And whatever is known, one
more registration under a name that stood for nothing leaves every name its type, and every accepted
program accepted with the same annotations. -/
theorem names_correspond :
    (∀ registrations : List (String × Ty), (∀ e ∈ registrations, IsFree e.1) →
      ∀ (ty : Ty) (span : Span),
        (builtin.registerAll registrations).resolve ty.text span = .ok ty ∧
        ∀ name : String, ty.Spells name.toList →
          (builtin.registerAll registrations).resolve name span = .ok ty) ∧
    (∀ a b : Ty, a.text = b.text ↔ a = b) ∧
    ∀ (types : TypeNames) (new : String) (ty : Ty), types.contains new = false →
      (∀ (name : String) (t : Ty) (span : Span), types.resolve name span = .ok t →
        (types.register new ty).resolve name span = .ok t) ∧
      ∀ p : Program, (p.analyze types).verdict = .ok () →
        p.analyze (types.register new ty) = p.analyze types := by
  refine ⟨fun registrations hfree ty span => ?_, fun a b => Ty.text_injective.eq_iff,
    fun types new ty hnew => ?_⟩
  · have hspelled : ∀ name : String, ty.Spells name.toList →
        (builtin.registerAll registrations).resolve name span = .ok ty := fun name h =>
      resolve_eq_ok_iff.2 (lookup_eq_some_iff.2 ((standard_registerAll hfree).standsFor h))
    exact ⟨hspelled ty.text ty.spells_text, hspelled⟩
  · have hextends : (types.register new ty).Extends types := extends_register hnew
    exact ⟨fun name t span h => hextends.resolve name span t h,
      fun p h => p.analyze_kept hextends () h⟩

/-- A program that counts with variables of a registered type. -/
def counting : Program :=
  ⟨[Build.global "limits" true (some "List<Count>") none],
    [Build.function "next" [("n", "Count")] (some " Integer ")
      [Build.ret (Build.binary .add (Build.var "n") (Build.literal (.integer 1)))],
    Build.function "main" [] (some "Count")
      [Build.declaration "n" (some "Count") (some (Build.call "next" [Build.literal (.integer 1)])),
      Build.ret (Build.var "n")]]⟩

/-- Where `Count` is registered for integers, list types may be spelled with blanks, and one more
name does not change how a program that uses it is annotated. -/
theorem names_correspond_counting :
    let known := builtin.registerAll [("Count", .integer)]
    known.resolve " List< List<Decimal > >" .nowhere = .ok (.list (.list .decimal)) ∧
      (known.register "List<Row>" .string).resolve " Count" .nowhere = .ok .integer ∧
      (counting.analyze known).verdict = .ok () ∧
      counting.analyze (known.register "List<Row>" .string) = counting.analyze known := by
  obtain ⟨hspelled, -, hregister⟩ := names_correspond
  have hfree : ∀ e ∈ [("Count", Ty.integer)], IsFree e.1 := by decide
  have hspells : (Ty.list (.list .decimal)).Spells " List< List<Decimal > >".toList := by
    have hblank : ∀ c ∈ [' '], isBlank c := List.forall_mem_singleton.2 (by decide)
    have hnone : ∀ c ∈ ([] : List Char), isBlank c := List.forall_mem_nil _
    have hdecimal := Ty.Spells.builtin (by decide : Ty.decimal ∈ Ty.builtins) hnone hblank
    exact .list (.list hdecimal hblank hblank) hblank hnone
  have hnew : (builtin.registerAll [("Count", .integer)]).contains "List<Row>" = false := by cbv
  have hcount : (builtin.registerAll [("Count", .integer)]).resolve " Count" .nowhere =
      .ok .integer := by cbv
  have haccepted :
      (counting.analyze (builtin.registerAll [("Count", .integer)])).verdict = .ok () := by cbv
  obtain ⟨hnames, hprograms⟩ := hregister _ "List<Row>" .string hnew
  exact ⟨(hspelled _ hfree _ .nowhere).2 _ hspells, hnames _ _ _ hcount, haccepted,
    hprograms counting haccepted⟩

end TypeNames

end ImpTree
