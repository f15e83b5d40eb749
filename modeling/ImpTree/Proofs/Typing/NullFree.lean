import ImpTree.Proofs.Tree.Parts
import ImpTree.Proofs.Typing.Rules

/-!
# Programs without missing values

The three ways in which a missing value, or a comparison of values of different kinds, comes into a
run of a checked program, and the programs that have none of them.

* `Program.NullFree` — no variable starts with a missing value that its type does not admit, no
  function ends without a result that it must have, and nothing is put in order whose type is only
  known to be `Comparable`.
* `Program.Typed.strict` — **a null-free program keeps to the strict rules**, those that leave no
  room for missing values.
-/

namespace ImpTree

/-! ## The condition -/

/-- The name is there and stands for a type that the missing value belongs to. -/
def TypeNames.AdmitsNull (types : TypeNames) (typeName : Option String) : Prop :=
  typeName.bind types.lookup = some .nil ∨ typeName.bind types.lookup = some .any

instance (types : TypeNames) : DecidablePred types.AdmitsNull :=
  fun _ => inferInstanceAs (Decidable (_ ∨ _))

instance : DecidablePred BinaryOp.IsOrdering := fun _ => inferInstanceAs (Decidable (_ ∨ _))

/-- An ordering has a left operand of a type more definite than `Comparable`. -/
def Expr.OrdersDefinite : Expr → Prop
  | .binary op left _ _ _ => op.IsOrdering → left.ty ≠ some .comparable
  | _ => True

instance : DecidablePred Expr.OrdersDefinite
  | .binary op left _ _ _ =>
    inferInstanceAs (Decidable (op.IsOrdering → left.ty ≠ some .comparable))
  | .literal .. | .group .. | .var .. | .element .. | .call .. | .list .. => isTrue trivial

/-- A declaration without an initial value has a type that the missing value belongs to. -/
def Stmt.StartsDefined (types : TypeNames) : Stmt → Prop
  | .declaration _ typeName none _ _ => types.AdmitsNull typeName
  | _ => True

instance (types : TypeNames) : DecidablePred (Stmt.StartsDefined types)
  | .declaration _ typeName none _ _ => inferInstanceAs (Decidable (types.AdmitsNull typeName))
  | .declaration _ _ (some _) _ _ => isTrue trivial
  | .expression .. | .assignment .. | .ifElse .. | .switch .. | .whileLoop .. | .ret .. =>
    isTrue trivial

/-- No missing value comes into a run of the annotated program but where its type admits it, and
only values of one kind are put in order. -/
structure Program.NullFree (types : TypeNames) (p : Program) : Prop where
  /-- Globals without an initial value have a type that admits it. -/
  globals : ∀ g ∈ p.globals, g.value = none → types.AdmitsNull g.typeName
  /-- So have declared variables. -/
  declarations : ∀ stmt ∈ p.stmts, stmt.StartsDefined types
  /-- A function whose result is neither `Nil` nor `Any` surely returns one. -/
  functions : ∀ f ∈ p.functions, ∀ ty, f.returnTy types = .ok ty → ty ≠ .nil → ty ≠ .any →
    Stmt.blockReturns f.body = true
  /-- Orderings are of definite types. -/
  orderings : ∀ e ∈ p.exprs, e.OrdersDefinite

variable {types : TypeNames} {noted : Prop}

/-! ## Expressions -/

mutual

/-- An expression keeps to the strict rules if its orderings are definite. -/
theorem Expr.Typed.strict (hn : noted) : ∀ (e : Expr) {known : Scope} {ty : Ty},
    e.Typed noted True known ty → (∀ x ∈ e.parts, x.OrdersDefinite) →
    e.Typed noted False known ty
  | .literal value span slot, known, ty, htyped, _ => by
    cases htyped with
    | literal hty hslot => exact .literal hty hslot
  | .group inner span slot, known, ty, htyped, hparts => by
    cases htyped with
    | group hbinary hinner hslot =>
      rw [Expr.parts, List.forall_mem_cons] at hparts
      exact .group hbinary (Expr.Typed.strict hn inner hinner hparts.2) hslot
  | .binary op left right span slot, known, ty, htyped, hparts => by
    cases htyped with
    | binary hleft hright hty _ hslot =>
      rw [Expr.parts, List.forall_mem_cons, List.forall_mem_append] at hparts
      obtain ⟨hdefinite, hl, hr⟩ := hparts
      have hleft' := Expr.Typed.strict hn left hleft hl
      have hright' := Expr.Typed.strict hn right hright hr
      refine .binary hleft' hright' hty (.inr ?_) hslot
      -- the type of the left operand is the one that its slot notes
      intro hop hcomparable
      exact hdefinite hop (hcomparable ▸ hleft.ty_eq hn)
  | .var name binding span slot, known, ty, htyped, _ => by
    cases htyped with
    | var hfound hbinding hslot => exact .var hfound hbinding hslot
  | .element name offset binding span slot, known, ty, htyped, hparts => by
    cases htyped with
    | element hoffset hfound hlist hbinding hslot =>
      rw [Expr.parts, List.forall_mem_cons] at hparts
      exact .element (Expr.Typed.strict hn offset hoffset hparts.2) hfound hlist hbinding hslot
  | .call name arguments binding span slot, known, ty, htyped, hparts => by
    cases htyped with
    | call hfound harguments haccepts hbinding hslot =>
      rw [Expr.parts, List.forall_mem_cons] at hparts
      have hall := Expr.AllTyped.strict hn arguments harguments hparts.2
      exact .call hfound hall haccepts hbinding hslot
  | .list elements span slot, known, ty, htyped, hparts => by
    cases htyped with
    | list helements hne hsame hslot =>
      rw [Expr.parts, List.forall_mem_cons] at hparts
      exact .list (Expr.AllTyped.strict hn elements helements hparts.2) hne hsame hslot

/-- Expressions keep to the strict rules if their orderings are definite. -/
theorem Expr.AllTyped.strict (hn : noted) : ∀ (es : List Expr) {known : Scope} {tys : List Ty},
    Expr.AllTyped noted True known es tys → (∀ x ∈ Expr.allParts es, x.OrdersDefinite) →
    Expr.AllTyped noted False known es tys
  | [], known, tys, htyped, _ => by
    cases htyped with
    | nil => exact .nil
  | e :: rest, known, tys, htyped, hparts => by
    cases htyped with
    | cons he hrest =>
      rw [Expr.allParts, List.forall_mem_append] at hparts
      have he' := Expr.Typed.strict hn e he hparts.1
      have hrest' := Expr.AllTyped.strict hn rest hrest hparts.2
      exact .cons he' hrest'

end

/-! ## Statements -/

/-- A declaration keeps to the strict rules if its type admits the missing value that the variable
may start with. -/
theorem Declares.strict (hn : noted) {known : Scope} {typeName : Option String}
    {value : Option Expr} {ty : Ty} (h : Declares types noted True known typeName value ty)
    (hdefined : value = none → types.AdmitsNull typeName)
    (hparts : ∀ x ∈ Expr.optionParts value, x.OrdersDefinite) :
    Declares types noted False known typeName value ty := by
  cases h with
  | named hname _ =>
    have hadmits := hdefined rfl
    rw [TypeNames.AdmitsNull, Option.bind_some, hname] at hadmits
    refine .named hname (.inr ?_)
    rcases hadmits with hnil | hany
    · cases hnil
      rfl
    · cases hany
      trivial
  | @both _ value _ _ hname hvalue haccepts =>
    exact .both hname (Expr.Typed.strict hn value hvalue hparts) haccepts
  | @inferred value _ hvalue => exact .inferred (Expr.Typed.strict hn value hvalue hparts)

section Statements

variable {result : Ty}

mutual

/-- A statement keeps to the strict rules if its declarations and orderings are definite. -/
theorem Stmt.Typed.strict (hn : noted) : ∀ (stmt : Stmt) {known after : Scope},
    Stmt.Typed types noted True result known stmt after →
    (∀ x ∈ stmt.parts, x.StartsDefined types) → (∀ x ∈ stmt.exprs, x.OrdersDefinite) →
    Stmt.Typed types noted False result known stmt after
  | .expression expr span, known, after, htyped, _, hexprs => by
    cases htyped with
    | expression hcall hexpr =>
      exact .expression hcall (Expr.Typed.strict hn expr hexpr hexprs)
  | .declaration name typeName value binding span, known, after, htyped, hparts, hexprs => by
    cases htyped with
    | declaration hty hadd hbinding =>
      have hdefined : value = none → types.AdmitsNull typeName := by
        rintro rfl
        exact hparts _ List.mem_cons_self
      exact .declaration (hty.strict hn hdefined hexprs) hadd hbinding
  | .assignment receiver value span, known, after, htyped, _, hexprs => by
    rw [Stmt.exprs, List.forall_mem_append] at hexprs
    cases htyped with
    | assigned hplace hfound hvalue haccepts hmutable =>
      have hplace' := Expr.Typed.strict hn _ hplace hexprs.1
      have hvalue' := Expr.Typed.strict hn value hvalue hexprs.2
      exact .assigned hplace' hfound hvalue' haccepts hmutable
    | @assignedElement _ _ offset _ _ _ _ _ _ _ _ hplace hoffset hfound hlist hvalue haccepts
        hmutable =>
      have hplace' := Expr.Typed.strict hn _ hplace hexprs.1
      have hvalue' := Expr.Typed.strict hn value hvalue hexprs.2
      rw [Expr.parts, List.forall_mem_cons] at hexprs
      have hoffset' := Expr.Typed.strict hn offset hoffset hexprs.1.2
      exact .assignedElement hplace' hoffset' hfound hlist hvalue' haccepts hmutable
  | .ifElse condition thenBody elseBody span, known, after, htyped, hparts, hexprs => by
    cases htyped with
    | ifElse hcondition hthen helse =>
      rw [Stmt.exprs, List.forall_mem_append, List.forall_mem_append] at hexprs
      rw [Stmt.parts, List.forall_mem_cons, List.forall_mem_append] at hparts
      have hcondition' := Expr.Typed.strict hn condition hcondition hexprs.1
      have hthen' := Stmt.BlockTyped.strict hn thenBody hthen hparts.2.1 hexprs.2.1
      have helse' := Stmt.BlockTyped.strict hn elseBody helse hparts.2.2 hexprs.2.2
      exact .ifElse hcondition' hthen' helse'
  | .switch condition cases span, known, after, htyped, hparts, hexprs => by
    cases htyped with
    | switch hcondition hcases =>
      rw [Stmt.exprs, List.forall_mem_append] at hexprs
      rw [Stmt.parts, List.forall_mem_cons] at hparts
      have hcondition' := Expr.Typed.strict hn condition hcondition hexprs.1
      have hcases' := Stmt.CasesTyped.strict hn cases hcases hparts.2 hexprs.2
      exact .switch hcondition' hcases'
  | .whileLoop condition body span, known, after, htyped, hparts, hexprs => by
    cases htyped with
    | whileLoop hcondition hbody =>
      rw [Stmt.exprs, List.forall_mem_append] at hexprs
      rw [Stmt.parts, List.forall_mem_cons] at hparts
      have hcondition' := Expr.Typed.strict hn condition hcondition hexprs.1
      have hbody' := Stmt.BlockTyped.strict hn body hbody hparts.2 hexprs.2
      exact .whileLoop hcondition' hbody'
  | .ret value span, known, after, htyped, _, hexprs => by
    cases htyped with
    | ret hvalue => exact .ret (Expr.Typed.strict hn value hvalue hexprs)

/-- Statements keep to the strict rules if their declarations and orderings are definite. -/
theorem Stmt.BlockTyped.strict (hn : noted) : ∀ (block : List Stmt) {known after : Scope},
    Stmt.BlockTyped types noted True result known block after →
    (∀ x ∈ Stmt.blockParts block, x.StartsDefined types) →
    (∀ x ∈ Stmt.blockExprs block, x.OrdersDefinite) →
    Stmt.BlockTyped types noted False result known block after
  | [], known, after, htyped, _, _ => by
    cases htyped with
    | nil => exact .nil
  | stmt :: rest, known, after, htyped, hparts, hexprs => by
    cases htyped with
    | cons hstmt hrest =>
      rw [Stmt.blockExprs, List.forall_mem_append] at hexprs
      rw [Stmt.blockParts, List.forall_mem_append] at hparts
      have hstmt' := Stmt.Typed.strict hn stmt hstmt hparts.1 hexprs.1
      have hrest' := Stmt.BlockTyped.strict hn rest hrest hparts.2 hexprs.2
      exact .cons hstmt' hrest'

/-- Arms keep to the strict rules if their declarations and orderings are definite. -/
theorem Stmt.CasesTyped.strict (hn : noted) : ∀ (arms : List Case) {known : Scope} {ty : Ty},
    Stmt.CasesTyped types noted True result known ty arms →
    (∀ x ∈ Stmt.casesParts arms, x.StartsDefined types) →
    (∀ x ∈ Stmt.casesExprs arms, x.OrdersDefinite) →
    Stmt.CasesTyped types noted False result known ty arms
  | [], known, ty, htyped, _, _ => by
    cases htyped
  | .mk value body span :: rest, known, ty, htyped, hparts, hexprs => by
    rw [Stmt.casesExprs, List.forall_mem_append, List.forall_mem_append] at hexprs
    rw [Stmt.casesParts, List.forall_mem_append] at hparts
    cases htyped with
    | last hbody => exact .last (Stmt.BlockTyped.strict hn body hbody hparts.1 hexprs.2.1)
    | @cons _ _ _ value _ _ _ hvalue hbody hrest =>
      have hvalue' := Expr.Typed.strict hn value hvalue hexprs.1
      have hbody' := Stmt.BlockTyped.strict hn body hbody hparts.1 hexprs.2.1
      have hrest' := Stmt.CasesTyped.strict hn rest hrest hparts.2 hexprs.2.2
      exact .cons hvalue' hbody' hrest'

end

end Statements

/-! ## Programs -/

/-- What holds of everything inside the elements holds of everything inside one of them. -/
theorem forall_of_flatMap {α β : Type} {P : β → Prop} {xs : List α} {f : α → List β}
    (h : ∀ b ∈ xs.flatMap f, P b) {x : α} (hx : x ∈ xs) : ∀ b ∈ f x, P b :=
  fun b hb => h b (List.mem_flatMap.2 ⟨x, hx, hb⟩)

/-- Globals keep to the strict rules if their declarations and orderings are definite. -/
theorem GlobalsTyped.strict (hn : noted) {known after : Scope} {globals : List Global}
    (h : GlobalsTyped types noted True known globals after)
    (hdefined : ∀ g ∈ globals, g.value = none → types.AdmitsNull g.typeName)
    (hexprs : ∀ g ∈ globals, ∀ e ∈ Expr.optionParts g.value, e.OrdersDefinite) :
    GlobalsTyped types noted False known globals after := by
  induction h with
  | nil => exact .nil
  | cons hty hadd hbinding _ ih =>
    rw [List.forall_mem_cons] at hdefined hexprs
    have hty' := hty.strict hn hdefined.1 hexprs.1
    exact .cons hty' hadd hbinding (ih hdefined.2 hexprs.2)

/-- A function keeps to the strict rules if its declarations and orderings are definite, and if it
surely returns a result that it must have. -/
theorem FunctionDef.Typed.strict (hn : noted) {known : Scope} {f : FunctionDef}
    {binding : FunctionBinding} (h : f.Typed types noted True known binding)
    (hparts : ∀ x ∈ Stmt.blockParts f.body, x.StartsDefined types)
    (hexprs : ∀ x ∈ Stmt.blockExprs f.body, x.OrdersDefinite)
    (hreturns : ∀ ty, f.returnTy types = .ok ty → ty ≠ .nil → ty ≠ .any →
      Stmt.blockReturns f.body = true) :
    f.Typed types noted False known binding where
  signature := h.signature
  note := h.note
  body := by
    obtain ⟨inside, after, hparameters, hbody⟩ := h.body
    exact ⟨inside, after, hparameters, Stmt.BlockTyped.strict hn f.body hbody hparts hexprs⟩
  returns := by
    by_cases hnil : binding.returnType = .nil
    · rw [hnil]
      exact .inl (.inr rfl)
    · by_cases hany : binding.returnType = .any
      · rw [hany]
        exact .inl Value.fits_any
      · exact .inr (hreturns _ (FunctionDef.signature_eq_ok h.signature).2.2 hnil hany)

/-- **A null-free program keeps to the strict rules.** -/
theorem Program.Typed.strict (hn : noted) {early known : Scope} {p : Program}
    (h : p.Typed types noted True early known) (hfree : p.NullFree types) :
    p.Typed types noted False early known where
  globals := by
    obtain ⟨hglobals, -⟩ := List.forall_mem_append.1 hfree.orderings
    exact h.globals.strict hn hfree.globals fun g hg => forall_of_flatMap hglobals hg
  functions := by
    obtain ⟨bindings, hdeclared, htyped⟩ := h.functions
    obtain ⟨-, hbodies⟩ := List.forall_mem_append.1 hfree.orderings
    refine ⟨bindings, hdeclared, ?_⟩
    rw [List.forall₂_iff_zip] at htyped ⊢
    refine ⟨htyped.1, ?_⟩
    intro f binding hmem
    have hf : f ∈ p.functions := (List.of_mem_zip hmem).1
    have hparts := forall_of_flatMap hfree.declarations hf
    have hexprs := forall_of_flatMap hbodies hf
    exact (htyped.2 hmem).strict hn hparts hexprs (hfree.functions f hf)
  main := h.main

end ImpTree
