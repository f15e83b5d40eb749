import ImpTree.Proofs.Annotations.Shape
import ImpTree.Proofs.Typing.Checker

/-!
# Checks repeat themselves

What a check leaves of a tree, checked again, comes to the same verdict and is left as it is.  This
holds whatever the slots held before, and of a check that failed halfway, too, where the values that
the first check has put into slots stay there in the second, which may fill slots in another way.

* `Filling.Settles` — two fillings by which values stay.
* `Checked.Repeats` — the property, with a lemma for every way of putting checks together.
* `Expr.check_repeats`, `Stmt.check_repeats` — expressions and statements.
* `Analyzer.fst_analyze`, `Analyzer.analyze_idle` — **a checker has no memory**.
* `Program.analyze_repeats` — **a check of a whole program repeats itself**.
-/

namespace ImpTree

/-! ## Repetition -/

/-- What one filling leaves in a slot stays when another filling puts the same value there again,
whatever the slot held before. -/
structure Filling.Settles (filling again : Filling) : Prop where
  /-- The same value once more leaves the slot as it is. -/
  fill {α : Type} (slot : Slot α) (a : α) :
    @Slot.fill again α (@Slot.fill filling α slot a) a = @Slot.fill filling α slot a

theorem Filling.keeping_settles : keeping.Settles keeping := ⟨fun _ _ => rfl⟩

/-- A value that has replaced what the slot held is the one that the slot holds. -/
theorem Filling.replacing_settles (again : Filling) : replacing.Settles again :=
  ⟨fun _ a => @Slot.fill_same again _ a⟩

namespace Checked

variable {ν μ σ α β : Type}

/-- The node that is left comes to the same under the check `redo`. -/
def Repeats (redo : ν → Checked ν α) (c : Checked ν α) : Prop := redo c.node = c

namespace Repeats

variable {check : ν → Checked ν α} {redo : μ → Checked μ β} {c : Checked ν α}

/-- A failure repeats itself if the node that is left fails in the same way. -/
theorem of_fail {node : μ} {e : Error} (h : redo node = fail node e) :
    (fail node e).Repeats redo := h

/-- A pass repeats itself if the node that is left passes in the same way. -/
theorem of_pass {node : μ} {b : β} (h : redo node = pass node b) : (pass node b).Repeats redo := h

/-- A last verdict repeats itself if the node that is left comes to it again. -/
theorem of_done {node : μ} {verdict : Except Error β} (h : redo node = done node verdict) :
    (done node verdict).Repeats redo := h

/-- Two steps of a check repeat themselves if each does where the other has come to the same. -/
theorem andThen {build : ν → μ} {next : ν → α → Checked μ β} (hc : c.Repeats check)
    (hfail : ∀ e, check c.node = fail c.node e → redo (build c.node) = fail (build c.node) e)
    (hpass : ∀ a, check c.node = pass c.node a → (next c.node a).Repeats redo) :
    (c.andThen build next).Repeats redo := by
  rcases c.eq_pass_or_eq_fail with ⟨a, h⟩ | ⟨e, h⟩
  · have hagain : check c.node = pass c.node a := hc.trans h
    rw [h, andThen_pass]
    exact hpass a hagain
  · have hagain : check c.node = fail c.node e := hc.trans h
    rw [h, andThen_fail]
    exact hfail e hagain

/-- A check inside a larger node repeats itself there. -/
theorem inside {redo : μ → Checked μ α} {build : ν → μ} (hc : c.Repeats check)
    (h : redo (build c.node) = (check c.node).inside build) : (c.inside build).Repeats redo :=
  h.trans (congrArg (Checked.inside · build) hc)

/-- Checks of the nodes of a list, one after the other, repeat themselves if each does. -/
theorem each {check redo : ν → σ → Checked ν σ}
    (h : ∀ node state, (check node state).Repeats (redo · state)) :
    ∀ (nodes : List ν) (state : σ),
      (Checked.each check nodes state).Repeats (Checked.each redo · state) := by
  intro nodes
  induction nodes with
  | nil => exact fun _ => rfl
  | cons node rest ih =>
    intro state
    rw [Checked.each]
    refine (h node state).andThen (fun e hnode => ?_) fun next hnode => ?_
    · rw [Checked.each, hnode, andThen_fail]
    · refine (ih next).inside ?_
      rw [Checked.each, hnode, andThen_pass]

end Repeats

end Checked

/-! ## Expressions -/

namespace Expr

-- The first check fills by `filling`, the second by `again`.  A `rw` with a check's own equations
-- finds the first only, so the second is computed by `simp only`.
variable {again : Filling} [filling : Filling] {scope : Scope}

/-- The end of a check repeats itself if the steps before it do. -/
theorem settle_repeats (hsettles : filling.Settles again) {redo : Expr → Checked Expr Ty}
    {verdict : Except Error Ty} {slot : Slot Ty} {build : Slot Ty → Expr}
    (h : ∀ slot, redo (build slot) = @settle again verdict slot build) :
    (settle verdict slot build).Repeats redo := by
  cases verdict with
  | ok ty =>
    exact (h (slot.fill ty)).trans
      (congrArg (fun slot => Checked.pass (build slot) ty) (hsettles.fill slot ty))
  | error e => exact h slot

mutual

/-- A check of an expression repeats itself. -/
theorem check_repeats (hsettles : filling.Settles again) :
    ∀ e : Expr, (e.check scope).Repeats (@check again scope)
  | .literal value span slot => settle_repeats hsettles fun slot => by simp only [check]
  | .group inner span slot => by
    rw [check]
    split
    · rename_i hbinary
      have hagain : (inner.check scope).node.isBinary = true := by rwa [isBinary_check]
      refine (check_repeats hsettles inner).andThen (fun e hinner => ?_) fun ty hinner =>
        settle_repeats hsettles fun slot => ?_
      · simp only [check, if_pos hagain, hinner, Checked.andThen_fail]
      · simp only [check, if_pos hagain, hinner, Checked.andThen_pass]
    · rename_i hbinary
      exact .of_fail (by simp only [check, if_neg hbinary])
  | .binary op left right span slot => by
    rw [check]
    refine (check_repeats hsettles left).andThen (fun e hleft => ?_) fun leftTy hleft =>
      (check_repeats hsettles right).andThen (fun e hright => ?_) fun rightTy hright =>
        settle_repeats hsettles fun slot => ?_
    · simp only [check, hleft, Checked.andThen_fail]
    · simp only [check, hleft, Checked.andThen_pass, hright, Checked.andThen_fail]
    · simp only [check, hleft, Checked.andThen_pass, hright]
  | .var name binding span slot => by
    rw [check]
    cases hfound : scope.findVariable name span with
    | ok found =>
      refine settle_repeats hsettles fun slot => ?_
      simp only [check, hfound, hsettles.fill binding found.binding]
    | error e => exact .of_fail (by simp only [check, hfound])
  | .element name offset binding span slot => by
    rw [check]
    refine (check_repeats hsettles offset).andThen (fun e hoffset => ?_) fun offsetTy hoffset => ?_
    · simp only [check, hoffset, Checked.andThen_fail]
    · cases hlist : (Ty.integer.requireSame offsetTy (offset.check scope).node.span).bind
        fun _ => lookupList scope name span with
      | ok found =>
        refine settle_repeats hsettles fun slot => ?_
        simp only [check, hoffset, Checked.andThen_pass, hlist, hsettles.fill binding found.1]
      | error e => exact .of_fail (by simp only [check, hoffset, Checked.andThen_pass, hlist])
  | .call name arguments binding span slot => by
    rw [check]
    cases hcallee : scope.findFunction name arguments.length span with
    | ok callee =>
      have hagain : scope.findFunction name
          (checkArguments scope arguments callee.binding.parameterTypes).node.length span =
            .ok callee := by rwa [length_checkArguments]
      refine (checkArguments_repeats hsettles arguments).andThen (fun e harguments => ?_)
        fun _ harguments => settle_repeats hsettles fun slot => ?_
      · simp only [check, hagain, harguments, Checked.andThen_fail]
      · simp only [check, hagain, harguments, Checked.andThen_pass,
          hsettles.fill binding callee.binding]
    | error e => exact .of_fail (by simp only [check, hcallee])
  | .list elements span slot => by
    rw [check]
    refine (checkElements_repeats hsettles elements).andThen (fun e helements => ?_)
      fun ty helements => ?_
    · simp only [check, helements, Checked.andThen_fail]
    · cases ty with
      | some ty =>
        refine settle_repeats hsettles fun slot => ?_
        simp only [check, helements, Checked.andThen_pass]
      | none => exact .of_fail (by simp only [check, helements, Checked.andThen_pass])

/-- So does a check of arguments. -/
theorem checkArguments_repeats (hsettles : filling.Settles again) :
    ∀ (es : List Expr) {parameters : List Ty},
    (checkArguments scope es parameters).Repeats (@checkArguments again scope · parameters)
  | [], _ => by
    rw [checkArguments.eq_def]
    exact @checkArguments.eq_def again ..
  | e :: rest, [] => rfl
  | e :: rest, parameter :: parameters => by
    rw [checkArguments]
    refine (check_repeats hsettles e).andThen (fun error he => ?_) fun ty he => ?_
    · simp only [checkArguments, he, Checked.andThen_fail]
    · cases haccepts : parameter.requireAccepts ty (e.check scope).node.span with
      | ok _ =>
        refine (checkArguments_repeats hsettles rest).inside ?_
        simp only [checkArguments, he, Checked.andThen_pass, haccepts]
      | error error =>
        exact .of_fail (by simp only [checkArguments, he, Checked.andThen_pass, haccepts])

/-- So does a check of the elements of a list. -/
theorem checkElements_repeats (hsettles : filling.Settles again) :
    ∀ (es : List Expr) {expected : Option Ty},
    (checkElements scope expected es).Repeats (@checkElements again scope expected)
  | [], _ => rfl
  | e :: rest, expected => by
    rw [checkElements]
    refine (check_repeats hsettles e).andThen (fun error he => ?_) fun ty he => ?_
    · simp only [checkElements, he, Checked.andThen_fail]
    · cases hsame : (expected.getD ty).requireSame ty (e.check scope).node.span with
      | ok _ =>
        refine (checkElements_repeats hsettles rest).inside ?_
        simp only [checkElements, he, Checked.andThen_pass, hsame]
      | error error =>
        exact .of_fail (by simp only [checkElements, he, Checked.andThen_pass, hsame])

end

end Expr

/-! ## Statements -/

section Statements

variable {again : Filling} [filling : Filling] {types : TypeNames} {expected : Option Ty}
  {scope : Scope}

/-- The check of a declaration repeats itself. -/
theorem declarationTy_repeats (hsettles : filling.Settles again) {name : String}
    {typeName : Option String} {span : Span} (value : Option Expr) :
    (declarationTy types scope name typeName value span).Repeats
      (@declarationTy again types scope name typeName · span) := by
  rw [declarationTy]
  cases hdeclared : typeName.mapM fun typeName => types.resolve typeName span with
  | error e => exact .of_fail (by simp only [declarationTy, hdeclared])
  | ok declared =>
    cases value with
    | none =>
      cases declared with
      | none => exact .of_fail (by simp only [declarationTy, hdeclared])
      | some declared => exact .of_pass (by simp only [declarationTy, hdeclared])
    | some expr =>
      refine (Expr.check_repeats hsettles expr).andThen (fun e hexpr => ?_) fun ty hexpr => ?_
      · simp only [declarationTy, hdeclared, hexpr, Checked.andThen_fail]
      · cases declared with
        | none =>
          exact .of_pass (by simp only [declarationTy, hdeclared, hexpr, Checked.andThen_pass])
        | some declared =>
          exact .of_done (by simp only [declarationTy, hdeclared, hexpr, Checked.andThen_pass])

/-- The check of a condition repeats itself. -/
theorem Expr.checkCondition_repeats (hsettles : filling.Settles again) (condition : Expr) :
    (condition.checkCondition scope).Repeats (@checkCondition again scope) := by
  rw [checkCondition]
  refine (check_repeats hsettles condition).andThen (fun e hcondition => ?_) fun ty hcondition => ?_
  · simp only [checkCondition, id, hcondition, Checked.andThen_fail]
  · refine .of_done ?_
    simp only [checkCondition, hcondition, Checked.andThen_pass]

/-- A block is empty after its check if it was before. -/
theorem Stmt.isEmpty_checkBlock (block : List Stmt) :
    (checkBlock types expected block scope).node.isEmpty = block.isEmpty := by
  have herase : eraseBlock (checkBlock types expected block scope).node = eraseBlock block :=
    eraseBlock_checkBlock block
  cases block with
  | nil => rfl
  | cons stmt rest =>
    cases hnode : (checkBlock types expected (stmt :: rest) scope).node with
    | nil => rw [hnode] at herase; cases herase
    | cons _ _ => rfl

/-- There are arms after a check if there were any before. -/
theorem Stmt.isEmpty_checkCases (cases : List Case) {ty : Ty} :
    (checkCases types expected scope ty cases).node.isEmpty = cases.isEmpty := by
  have herase : eraseCases (checkCases types expected scope ty cases).node = eraseCases cases :=
    eraseCases_checkCases cases
  cases cases with
  | nil => rfl
  | cons arm rest =>
    cases hnode : (checkCases types expected scope ty (arm :: rest)).node with
    | nil => rw [hnode] at herase; cases herase
    | cons _ _ => rfl

mutual

/-- A check of a statement repeats itself. -/
theorem Stmt.check_repeats (hsettles : filling.Settles again) : ∀ (stmt : Stmt) {scope : Scope},
    (stmt.check types expected scope).Repeats (@Stmt.check again types expected · scope)
  | .expression expr span, scope => by
    rw [check]
    split
    · rename_i hcall
      have hagain : (expr.check scope).node.isCall = true := by rwa [Expr.isCall_check]
      refine (Expr.check_repeats hsettles expr).andThen (fun e hexpr => ?_)
        fun _ hexpr => .of_pass ?_
      · simp only [check, if_pos hagain, hexpr, Checked.andThen_fail]
      · simp only [check, if_pos hagain, hexpr, Checked.andThen_pass]
    · rename_i hcall
      exact .of_fail (by simp only [check, if_neg hcall])
  | .declaration name typeName value binding span, scope => by
    rw [check]
    refine (declarationTy_repeats hsettles value).andThen (fun e hty => ?_) fun ty hty => ?_
    · simp only [check, hty, Checked.andThen_fail]
    · cases hadd : scope.addVariable ⟨name, ty, true⟩ .nil span with
      | ok scope =>
        refine .of_pass ?_
        simp only [check, hty, Checked.andThen_pass, hadd, hsettles.fill binding]
      | error e => exact .of_fail (by simp only [check, hty, Checked.andThen_pass, hadd])
  | .assignment receiver value span, scope => by
    rw [check]
    split
    · rename_i hplace
      have hagain : (receiver.check scope).node.isPlace = true := by rwa [Expr.isPlace_check]
      refine (Expr.check_repeats hsettles receiver).andThen (fun e htarget => ?_) fun _ htarget =>
        (Expr.check_repeats hsettles value).andThen (fun e hsource => ?_)
          fun _ hsource => .of_done ?_
      · simp only [check, if_pos hagain, htarget, Checked.andThen_fail]
      · simp only [check, if_pos hagain, htarget, Checked.andThen_pass, hsource,
          Checked.andThen_fail]
      · simp only [check, if_pos hagain, htarget, Checked.andThen_pass, hsource]
    · rename_i hplace
      exact .of_fail (by simp only [check, if_neg hplace])
  | .ifElse condition thenBody elseBody span, scope => by
    rw [check]
    refine (condition.checkCondition_repeats hsettles).andThen (fun e hcondition => ?_)
      fun _ hcondition => ?_
    · simp only [check, hcondition, Checked.andThen_fail]
    · split
      · rename_i hempty
        exact .of_fail (by simp only [check, hcondition, Checked.andThen_pass, if_pos hempty])
      · rename_i hempty
        have hagain : ¬(checkBlock types expected thenBody scope.child).node.isEmpty = true := by
          rwa [isEmpty_checkBlock]
        refine (checkBlock_repeats hsettles thenBody).andThen (fun e hthen => ?_) fun _ hthen =>
          (checkBlock_repeats hsettles elseBody).andThen (fun e helse => ?_)
            fun _ helse => .of_pass ?_
        · simp only [check, hcondition, Checked.andThen_pass, if_neg hagain, hthen,
            Checked.andThen_fail]
        · simp only [check, hcondition, Checked.andThen_pass, if_neg hagain, hthen, helse,
            Checked.andThen_fail]
        · simp only [check, hcondition, Checked.andThen_pass, if_neg hagain, hthen, helse]
  | .switch condition cases span, scope => by
    rw [check]
    refine (Expr.check_repeats hsettles condition).andThen (fun e hcondition => ?_)
      fun ty hcondition => ?_
    · simp only [check, hcondition, Checked.andThen_fail]
    · split
      · rename_i hempty
        exact .of_fail (by simp only [check, hcondition, Checked.andThen_pass, if_pos hempty])
      · rename_i hempty
        have hagain : ¬(checkCases types expected scope ty cases).node.isEmpty = true := by
          rwa [isEmpty_checkCases]
        refine (checkCases_repeats hsettles cases).andThen (fun e hcases => ?_)
          fun _ hcases => .of_pass ?_
        · simp only [check, hcondition, Checked.andThen_pass, if_neg hagain, hcases,
            Checked.andThen_fail]
        · simp only [check, hcondition, Checked.andThen_pass, if_neg hagain, hcases]
  | .whileLoop condition body span, scope => by
    rw [check]
    refine (condition.checkCondition_repeats hsettles).andThen (fun e hcondition => ?_)
      fun _ hcondition =>
      (checkBlock_repeats hsettles body).andThen (fun e hbody => ?_) fun _ hbody => .of_pass ?_
    · simp only [check, hcondition, Checked.andThen_fail]
    · simp only [check, hcondition, Checked.andThen_pass, hbody, Checked.andThen_fail]
    · simp only [check, hcondition, Checked.andThen_pass, hbody]
  | .ret value span, scope => by
    rw [check]
    refine (Expr.check_repeats hsettles value).andThen (fun e hvalue => ?_)
      fun _ hvalue => .of_done ?_
    · simp only [check, hvalue, Checked.andThen_fail]
    · simp only [check, hvalue, Checked.andThen_pass]

/-- So does a check of a block. -/
theorem Stmt.checkBlock_repeats (hsettles : filling.Settles again) :
    ∀ (block : List Stmt) {scope : Scope},
    (checkBlock types expected block scope).Repeats (@checkBlock again types expected · scope)
  | [], _ => rfl
  | stmt :: rest, scope => by
    rw [checkBlock]
    refine (check_repeats hsettles stmt).andThen (fun e hstmt => ?_) fun next hstmt =>
      (checkBlock_repeats hsettles rest).inside ?_
    · simp only [checkBlock, hstmt, Checked.andThen_fail]
    · simp only [checkBlock, hstmt, Checked.andThen_pass]

/-- So does a check of the arms of a switch. -/
theorem Stmt.checkCases_repeats (hsettles : filling.Settles again) :
    ∀ (cases : List Case) {scope : Scope} {ty : Ty},
    (checkCases types expected scope ty cases).Repeats (@checkCases again types expected scope ty)
  | [], _, _ => rfl
  | arm :: rest, scope, ty => by
    rw [checkCases]
    refine (caseCheck_repeats hsettles arm).andThen (fun e harm => ?_) fun _ harm => ?_
    · simp only [checkCases, harm, Checked.andThen_fail]
    · refine (checkCases_repeats hsettles rest).inside ?_
      simp only [checkCases, isEmpty_checkCases, harm, Checked.andThen_pass]

/-- So does a check of one arm. -/
theorem Stmt.caseCheck_repeats (hsettles : filling.Settles again) :
    ∀ (arm : Case) {scope : Scope} {ty : Ty} {isLast : Bool},
    (arm.check types expected scope ty isLast).Repeats
      (@Case.check again types expected scope ty isLast)
  | .mk (some value) body span, scope, ty, isLast => by
    rw [Case.check]
    split
    · rename_i hlast
      exact .of_fail (by simp only [Case.check, if_pos hlast])
    · rename_i hlast
      refine (Expr.check_repeats hsettles value).andThen (fun e hvalue => ?_)
        fun valueTy hvalue => ?_
      · simp only [Case.check, if_neg hlast, hvalue, Checked.andThen_fail]
      · cases hsame : ty.requireSame valueTy (value.check scope).node.span with
        | ok _ =>
          refine (checkBlock_repeats hsettles body).andThen (fun e hbody => ?_)
            fun _ hbody => .of_pass ?_
          · simp only [Case.check, if_neg hlast, hvalue, Checked.andThen_pass, hsame, hbody,
              Checked.andThen_fail]
          · simp only [Case.check, if_neg hlast, hvalue, Checked.andThen_pass, hsame, hbody]
        | error e =>
          exact .of_fail (by
            simp only [Case.check, if_neg hlast, hvalue, Checked.andThen_pass, hsame])
  | .mk none body span, scope, ty, isLast => by
    rw [Case.check]
    split
    · rename_i hlast
      refine (checkBlock_repeats hsettles body).andThen (fun e hbody => ?_)
        fun _ hbody => .of_pass ?_
      · simp only [Case.check, if_pos hlast, hbody, Checked.andThen_fail]
      · simp only [Case.check, if_pos hlast, hbody, Checked.andThen_pass]
    · rename_i hlast
      exact .of_fail (by simp only [Case.check, if_neg hlast])

end

end Statements

/-! ## Programs -/

/-- Whether there is a `main` to start from does not depend on annotations. -/
theorem Program.entryPoint_congr {types : TypeNames} {p q : Program}
    (h : q.functions.map FunctionDef.erase = p.functions.map FunctionDef.erase) :
    q.entryPoint types = p.entryPoint types := by
  have hmain : (q.functions.find? FunctionDef.isMain).map FunctionDef.erase =
      (p.functions.find? FunctionDef.isMain).map FunctionDef.erase := by
    have hfind := congrArg (List.find? FunctionDef.isMain) h
    rwa [List.find?_map, List.find?_map] at hfind
  rw [entryPoint, entryPoint]
  cases hp : p.functions.find? FunctionDef.isMain with
  | none =>
    rw [hp, Option.map_none, Option.map_eq_none_iff] at hmain
    rw [hmain]
  | some f =>
    rw [hp, Option.map_some, Option.map_eq_some_iff] at hmain
    obtain ⟨g, hq, herase⟩ := hmain
    have hname : g.returnTypeName = f.returnTypeName := by
      change g.erase.returnTypeName = f.erase.returnTypeName
      rw [herase]
    have hreturn : g.returnTy types = f.returnTy types := by
      change g.erase.returnTy types = f.erase.returnTy types
      rw [herase]
    rw [hq]
    dsimp only
    rw [hname, hreturn]

section Programs

variable {again : Filling} [filling : Filling] {types : TypeNames}

/-- A check of a global repeats itself. -/
theorem Global.check_repeats (hsettles : filling.Settles again) (g : Global) (scope : Scope) :
    (g.check types scope).Repeats (@Global.check again types · scope) := by
  rw [Global.check]
  split
  · rename_i hmissing
    exact .of_fail (by simp only [Global.check, if_pos hmissing])
  · rename_i hmissing
    have hagain : ¬((declarationTy types scope g.name g.typeName g.value g.span).node.isNone &&
        !g.isMutable) = true := by
      rwa [isNone_declarationTy]
    refine (declarationTy_repeats hsettles g.value).andThen (fun e hty => ?_) fun ty hty => ?_
    · simp only [Global.check, if_neg hagain, hty, Checked.andThen_fail]
    · dsimp only
      cases hadd : scope.addVariable ⟨g.name, ty, g.isMutable⟩ .nil g.span with
      | ok scope =>
        refine .of_pass ?_
        simp only [Global.check, if_neg hagain, hty, Checked.andThen_pass, hadd,
          hsettles.fill g.binding]
      | error e =>
        refine .of_fail ?_
        simp only [Global.check, if_neg hagain, hty, Checked.andThen_pass, hadd]

namespace FunctionDef

/-- A declaration of a function reads neither its body nor its slot, and finds the same by every
filling. -/
theorem declare_eq (again : Filling) (types : TypeNames) (f : FunctionDef) (body : List Stmt)
    (slot : Slot FunctionBinding) (index : Nat) (scope : Scope) :
    @FunctionDef.declare again types index { f with body, binding := slot } scope =
      match (@FunctionDef.declare filling types index f scope).verdict with
      | .ok (after, binding) =>
        .pass { f with body, binding := @Slot.fill again _ slot binding } (after, binding)
      | .error e => .fail { f with body, binding := slot } e := by
  have hsame : signature types { f with body, binding := slot } = f.signature types := rfl
  simp only [declare, hsame]
  cases f.signature types with
  | error e => rfl
  | ok binding =>
    simp only [bind, Except.bind]
    cases scope.addFunction ⟨binding, .declared index⟩ f.span with
    | error e => rfl
    | ok after => rfl

/-- A declaration of a function repeats itself. -/
theorem declare_repeats (hsettles : filling.Settles again) (f : FunctionDef) {index : Nat}
    {scope : Scope} :
    (f.declare types index scope).Repeats (@FunctionDef.declare again types index · scope) := by
  have hself := declare_eq filling types f f.body f.binding index scope
  cases hverdict : (f.declare types index scope).verdict with
  | ok declared =>
    rw [hverdict] at hself
    rw [hself]
    refine .of_pass ?_
    rw [declare_eq, hverdict]
    exact congrArg (fun slot => Checked.pass { f with binding := slot } declared)
      (hsettles.fill f.binding declared.2)
  | error e =>
    rw [hverdict] at hself
    rw [hself]
    refine .of_fail ?_
    rw [declare_eq, hverdict]

/-- So do declarations of functions. -/
theorem declareAll_repeats (hsettles : filling.Settles again) :
    ∀ (fs : List FunctionDef) {index : Nat} {scope : Scope},
    (declareAll types index fs scope).Repeats (@declareAll again types index · scope)
  | [], _, _ => rfl
  | f :: rest, index, scope => by
    rw [declareAll]
    refine (declare_repeats hsettles f).andThen (fun e hf => ?_) fun declared hf => ?_
    · simp only [declareAll, hf, Checked.andThen_fail]
    · refine (declareAll_repeats hsettles rest).andThen (fun e hrest => ?_) fun others hrest =>
        .of_pass ?_
      · simp only [declareAll, hf, Checked.andThen_pass, hrest, Checked.andThen_fail]
      · simp only [declareAll, hf, Checked.andThen_pass, hrest]

/-- A function that can be declared can be declared in the same way with another body. -/
theorem declare_with_body {f : FunctionDef} {index : Nat} {scope : Scope}
    {declared : Scope × FunctionBinding} (h : f.declare types index scope = .pass f declared)
    (body : List Stmt) :
    FunctionDef.declare types index { f with body } scope = .pass { f with body } declared := by
  have hself := declare_eq filling types f f.body f.binding index scope
  have hother := declare_eq filling types f body f.binding index scope
  rw [h] at hself hother
  have hfilled : f.binding = f.binding.fill declared.2 :=
    congrArg (fun c => c.node.binding) hself
  rw [hother]
  exact congrArg (fun slot => Checked.pass { f with body, binding := slot } declared) hfilled.symm

/-- Functions that can be declared can be declared in the same way with other bodies. -/
theorem declareAll_with_bodies {fs fs' : List FunctionDef} {index : Nat} {scope : Scope}
    {declared : Scope × List FunctionBinding}
    (hsame : List.Forall₂ (fun f f' => ∃ body, f' = { f with body := body }) fs fs')
    (h : declareAll types index fs scope = .pass fs declared) :
    declareAll types index fs' scope = .pass fs' declared := by
  induction hsame generalizing index scope declared with
  | nil =>
    cases h
    rfl
  | @cons f f' rest rest' hf hrest ih =>
    obtain ⟨body, rfl⟩ := hf
    rw [declareAll] at h
    obtain ⟨f₁, head, hf, h⟩ := Checked.andThen_eq_pass h
    obtain ⟨rest₁, tail, htail, h⟩ := Checked.andThen_eq_pass h
    cases h
    rw [declareAll, declare_with_body hf, Checked.andThen_pass]
    dsimp only
    rw [ih htail, Checked.andThen_pass]

end FunctionDef

namespace Program

/-- What comes before the bodies repeats itself. -/
theorem declare_repeats (hsettles : filling.Settles again) (p : Program) :
    (p.declare types).Repeats (@Program.declare again types) := by
  rw [declare]
  cases hentry : p.entryPoint types with
  | error e => exact .of_fail (by simp only [declare, hentry])
  | ok _ =>
    refine (Checked.Repeats.each (Global.check_repeats hsettles) p.globals Scope.initial).andThen
      (fun e hglobals => ?_) fun scope hglobals =>
        (FunctionDef.declareAll_repeats hsettles p.functions).inside ?_
    · have hagain : Program.entryPoint
          { p with globals := (Checked.each (Global.check types) p.globals Scope.initial).node }
          types = .ok () := hentry
      simp only [declare, hagain, hglobals, Checked.andThen_fail]
    · have hagain : Program.entryPoint
          ⟨(Checked.each (Global.check types) p.globals Scope.initial).node,
            (FunctionDef.declareAll types 0 p.functions scope).node⟩ types = .ok () :=
        (entryPoint_congr (FunctionDef.map_erase_declareAll p.functions)).trans hentry
      simp only [declare, hagain, hglobals, Checked.andThen_pass]

/-- A program whose parts can be declared can be declared in the same way with other bodies. -/
theorem declare_with_bodies {p : Program} {functions : List FunctionDef}
    {declared : Scope × List FunctionBinding} (h : p.declare types = .pass p declared)
    (hsame : List.Forall₂ (fun f f' => ∃ body, f' = { f with body := body }) p.functions functions)
    (hentry : Program.entryPoint { p with functions } types = p.entryPoint types) :
    Program.declare types { p with functions } = .pass { p with functions } declared := by
  rw [declare] at h ⊢
  rw [hentry]
  split at h
  · cases h
  · obtain ⟨globals, scope, hglobals, h⟩ := Checked.andThen_eq_pass h
    obtain ⟨declaredFunctions, hfunctions, hp⟩ := Checked.inside_eq_pass h
    subst hp
    dsimp only at hglobals hfunctions hsame ⊢
    rw [hglobals, Checked.andThen_pass, FunctionDef.declareAll_with_bodies hsame hfunctions]
    rfl

end Program

namespace Analyzer

variable {a : Analyzer} {scope : Scope} {f : FunctionDef} {binding : FunctionBinding}

/-! ### The checker's own state -/

/-- The check of a body, without the checker's state after it. -/
theorem fst_checkFunction : (a.checkFunction scope f binding).1 =
    match declareParameters f.span f.parameters binding.parameterTypes scope.child with
    | .ok inside =>
      (Stmt.checkBlock a.types (some binding.returnType) f.body inside).andThen
        (fun body => { f with body }) fun body _ => .pass { f with body } ()
    | .error e => .fail f e := by
  rw [checkFunction]
  cases declareParameters f.span f.parameters binding.parameterTypes scope.child <;> rfl

/-- A checker of which nothing is expected is the same after the check of a body. -/
theorem snd_checkFunction (h : a.expected = none) : (a.checkFunction scope f binding).2 = a := by
  rw [checkFunction]
  cases declareParameters f.span f.parameters binding.parameterTypes scope.child with
  | ok _ =>
    obtain ⟨types, expected⟩ := a
    subst h
    rfl
  | error e => rfl

/-- What was expected before does not matter to the checks of bodies. -/
theorem fst_checkFunctions : ∀ (fs : List FunctionDef) (bindings : List FunctionBinding)
    (a : Analyzer), (a.checkFunctions scope fs bindings).1 =
      ((Analyzer.new a.types).checkFunctions scope fs bindings).1
  | [], bindings, a => by
    rw [checkFunctions.eq_def, checkFunctions.eq_def]
  | f :: rest, [], a => rfl
  | f :: rest, binding :: bindings, a => by
    have htypes : (a.checkFunction scope f binding).2.types =
        ((Analyzer.new a.types).checkFunction scope f binding).2.types := by
      rw [types_checkFunction, types_checkFunction]
      rfl
    have hf : (a.checkFunction scope f binding).1 =
        ((Analyzer.new a.types).checkFunction scope f binding).1 := by
      rw [fst_checkFunction, fst_checkFunction]
      rfl
    rw [checkFunctions_cons, checkFunctions_cons, hf,
      fst_checkFunctions rest bindings (a.checkFunction scope f binding).2, htypes,
      ← fst_checkFunctions rest bindings]

/-- A checker of which nothing is expected is the same after the checks of bodies. -/
theorem snd_checkFunctions : ∀ (fs : List FunctionDef) (bindings : List FunctionBinding)
    {a : Analyzer}, a.expected = none → (a.checkFunctions scope fs bindings).2 = a
  | [], bindings, a, h => by
    rw [checkFunctions.eq_def]
  | f :: rest, [], a, h => rfl
  | f :: rest, binding :: bindings, a, h => by
    rw [checkFunctions]
    dsimp only
    split
    · rw [snd_checkFunction h]
      exact snd_checkFunctions rest bindings h
    · exact snd_checkFunction h

/-- **A checker has no memory**: whatever it has checked before, it leaves the annotations and comes
to the verdict of a new one. -/
theorem fst_analyze (a : Analyzer) (p : Program) : (a.analyze p).1 = p.analyze a.types := by
  rw [Program.analyze, analyze_eq, analyze_eq]
  refine congrArg ((p.declare a.types).andThen id) (funext fun declared => funext fun known => ?_)
  dsimp only
  rw [fst_checkFunctions]

/-- A checker of which nothing is expected is the same after a program as before, whether the
program passes or fails. -/
theorem analyze_idle (h : a.expected = none) (p : Program) : (a.analyze p).2 = a := by
  rw [analyze]
  dsimp only
  split
  · exact snd_checkFunctions _ _ h
  · rfl

/-! ### Repetition -/

/-- A check of a body repeats itself. -/
theorem checkFunction_repeats (hsettles : filling.Settles again) (f : FunctionDef) :
    (a.checkFunction scope f binding).1.Repeats
      fun f => (@checkFunction again a scope f binding).1 := by
  rw [fst_checkFunction]
  cases hinside : declareParameters f.span f.parameters binding.parameterTypes scope.child with
  | error e => exact .of_fail (by simp only [fst_checkFunction, hinside])
  | ok inside =>
    refine (Stmt.checkBlock_repeats hsettles f.body).andThen (fun e hbody => ?_) fun _ hbody =>
      .of_pass ?_
    · simp only [fst_checkFunction, hinside, hbody, Checked.andThen_fail]
    · simp only [fst_checkFunction, hinside, hbody, Checked.andThen_pass]

/-- So do the checks of bodies. -/
theorem checkFunctions_repeats (hsettles : filling.Settles again) (h : a.expected = none) :
    ∀ (fs : List FunctionDef) (bindings : List FunctionBinding),
    (a.checkFunctions scope fs bindings).1.Repeats
      fun fs => (@checkFunctions again a scope fs bindings).1
  | [], bindings => by
    rw [checkFunctions.eq_def]
    exact .of_pass (by rw [@checkFunctions.eq_def again])
  | f :: rest, [] => rfl
  | f :: rest, binding :: bindings => by
    rw [checkFunctions_cons, snd_checkFunction h]
    refine (checkFunction_repeats hsettles f).andThen (fun e hf => ?_) fun _ hf =>
      (checkFunctions_repeats hsettles h rest bindings).inside ?_
    · simp only [checkFunctions_cons, hf, Checked.andThen_fail]
    · have hidle := @snd_checkFunction again a scope (a.checkFunction scope f binding).1.node
        binding h
      simp only [checkFunctions_cons, hf, Checked.andThen_pass, hidle]

/-- The check of a body changes the body only. -/
theorem checkFunction_body (a : Analyzer) (scope : Scope) (f : FunctionDef)
    (binding : FunctionBinding) :
    ∃ body, (a.checkFunction scope f binding).1.node = { f with body := body } := by
  rw [fst_checkFunction]
  split
  · rename_i inside _
    generalize Stmt.checkBlock a.types (some binding.returnType) f.body inside = checked
    exact ⟨checked.node, Checked.node_andThen id rfl fun _ => rfl⟩
  · exact ⟨f.body, rfl⟩

/-- The checks of bodies change bodies only. -/
theorem checkFunctions_bodies (scope : Scope) : ∀ (fs : List FunctionDef)
    (bindings : List FunctionBinding) (a : Analyzer),
    List.Forall₂ (fun f f' => ∃ body, f' = { f with body := body }) fs
      (a.checkFunctions scope fs bindings).1.node
  | [], bindings, a => by
    rw [checkFunctions.eq_def]
    exact .nil
  | f :: rest, [], a => List.forall₂_same.2 fun f _ => ⟨f.body, rfl⟩
  | f :: rest, binding :: bindings, a => by
    have hf := checkFunction_body a scope f binding
    rw [checkFunctions_cons]
    rcases (a.checkFunction scope f binding).1.eq_pass_or_eq_fail with ⟨_, h⟩ | ⟨e, h⟩
    · rw [h, Checked.andThen_pass]
      exact .cons hf (checkFunctions_bodies scope rest bindings _)
    · rw [h, Checked.andThen_fail]
      exact .cons hf (List.forall₂_same.2 fun f _ => ⟨f.body, rfl⟩)

end Analyzer

/-- Whether there is a `main` to start from does not depend on checks of bodies. -/
theorem Program.entryPoint_checkFunctions (types : TypeNames) (a : Analyzer) (p : Program)
    (known : Scope × List FunctionBinding) :
    entryPoint { p with functions := (a.checkFunctions known.1 p.functions known.2).1.node }
      types = p.entryPoint types :=
  entryPoint_congr (Analyzer.map_erase_checkFunctions p.functions known.2 a known.1)

/-- A program is checked in two parts, the second of which takes what the first has found. -/
theorem Program.analyze_parts (p : Program) :
    p.analyze types = (p.declare types).andThen id fun declared known =>
      ((Analyzer.new types).checkFunctions known.1 declared.functions known.2).1.inside
        fun functions => { declared with functions } :=
  Analyzer.analyze_eq

/-- **A check repeats itself.**  Whatever the slots of a program held before the check, and whether
the program passed or failed, a second check comes to the same verdict and changes no slot if it
leaves the values of the first one where they are. -/
theorem Program.analyze_repeats (hsettles : filling.Settles again) (p : Program) :
    (p.analyze types).Repeats (@Program.analyze again types) := by
  rw [analyze_parts]
  refine (declare_repeats hsettles p).andThen (fun e hdeclare => ?_) fun known hdeclare => ?_
  · simp only [analyze_parts, id, hdeclare, Checked.andThen_fail]
  · refine (Analyzer.checkFunctions_repeats hsettles rfl _ known.2).inside ?_
    have hsame := Analyzer.checkFunctions_bodies known.1 (p.declare types).node.functions
      known.2 (Analyzer.new types)
    have hentry := entryPoint_checkFunctions types (Analyzer.new types) (p.declare types).node known
    have hagain := @declare_with_bodies again _ _ _ _ hdeclare hsame hentry
    simp only [analyze_parts, hagain, Checked.andThen_pass]

end Programs

/-- So does a check that keeps what slots hold, of any program. -/
theorem Program.analyze_repeats_keeping {types : TypeNames} (p : Program) :
    (p.analyze types).Repeats (Program.analyze types) :=
  p.analyze_repeats Filling.keeping_settles

end ImpTree
