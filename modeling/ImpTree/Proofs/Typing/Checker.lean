import ImpTree.Proofs.Scope.Names
import ImpTree.Proofs.Tree.Erase
import ImpTree.Proofs.Typing.Rules

/-!
# The checker keeps to the rules

What passes a check is well typed with the annotations that the check leaves, and a tree that was
fresh before notes what the rules find.

* `Expr.typed_of_check` — expressions.
* `Stmt.typed_of_check` — statements.
* `Program.typed_of_analyze` — **whole programs**: an accepted program is well typed.
-/

namespace ImpTree

/-! ## Steps of a check -/

namespace Checked

variable {ν μ α β : Type} {c : Checked ν α}

/-- A step and the next one pass only if both do. -/
theorem andThen_eq_pass {build : ν → μ} {next : ν → α → Checked μ β} {m : μ} {b : β}
    (h : c.andThen build next = pass m b) : ∃ n a, c = pass n a ∧ next n a = pass m b := by
  rcases c.eq_pass_or_eq_fail with ⟨a, hc⟩ | ⟨e, hc⟩
  · rw [hc, andThen_pass] at h
    exact ⟨c.node, a, hc, h⟩
  · rw [hc, andThen_fail] at h
    cases h

theorem inside_eq_pass {build : ν → μ} {m : μ} {a : α} (h : c.inside build = pass m a) :
    ∃ n, c = pass n a ∧ m = build n := by
  rcases c.eq_pass_or_eq_fail with ⟨a', hc⟩ | ⟨e, hc⟩
  · rw [hc, inside_pass] at h
    cases h
    exact ⟨c.node, hc, rfl⟩
  · rw [hc, inside_fail] at h
    cases h

theorem done_eq_pass {node m : ν} {verdict : Except Error α} {a : α}
    (h : done node verdict = pass m a) : m = node ∧ verdict = .ok a := by
  cases h
  exact ⟨rfl, rfl⟩

theorem fail_ne_pass {node m : ν} {e : Error} {a : α} : fail node e ≠ pass m a := by
  intro h
  cases h

end Checked

/-- An empty slot notes what is put into it. -/
theorem Slot.notes_fill {α : Type} {noted : Prop} {slot : Slot α} (h : noted → slot = none)
    (a : α) : (slot.fill a).Notes noted a := by
  intro hn
  rw [h hn, Slot.fill_none]

theorem Expr.settle_eq_pass {verdict : Except Error Ty} {slot : Slot Ty} {build : Slot Ty → Expr}
    {e : Expr} {ty : Ty} (h : settle verdict slot build = .pass e ty) :
    verdict = .ok ty ∧ e = build (slot.fill ty) := by
  cases verdict with
  | ok t => cases h; exact ⟨rfl, rfl⟩
  | error e => cases h

/-! ## Expressions -/

namespace Expr

variable {noted : Prop} {known : Scope}

/-- The variable that holds the list, and the type of its elements. -/
theorem lookupList_eq_ok {name : String} {span : Span} {binding : VariableBinding} {ty : Ty}
    (h : lookupList known name span = .ok (binding, ty)) :
    ∃ found, known.var? name = some found ∧ found.binding = binding ∧ binding.ty = .list ty := by
  obtain ⟨found, hfound, h⟩ := Except.bind_ok_inv h
  refine ⟨found, Scope.findVariable_eq_ok.1 hfound, ?_⟩
  cases hty : found.binding.ty with
  | list t => rw [hty] at h; cases h; exact ⟨rfl, hty⟩
  | _ => rw [hty] at h; cases h

/-- A check leaves an operator with its operands what it is. -/
theorem isBinary_of_check {e e' : Expr} {ty : Ty} (h : e.check known = .pass e' ty)
    (hbinary : e.isBinary = true) : e'.isBinary = true := by
  cases e with
  | binary op left right span slot =>
    rw [check] at h
    obtain ⟨left', leftTy, -, h⟩ := Checked.andThen_eq_pass h
    obtain ⟨right', rightTy, -, h⟩ := Checked.andThen_eq_pass h
    obtain ⟨-, rfl⟩ := settle_eq_pass h
    rfl
  | _ => cases hbinary

mutual

/-- An expression that passes a check has the type of the check. -/
theorem typed_of_check : ∀ (e : Expr) {e' : Expr} {ty : Ty}, e.check known = .pass e' ty →
    (noted → e.IsFresh) → e'.Typed noted True known ty
  | .literal value span slot, e', ty, h, hfresh => by
    rw [check] at h
    obtain ⟨hty, rfl⟩ := settle_eq_pass h
    exact .literal hty (Slot.notes_fill (fun hn => isFresh_iff.1 (hfresh hn)) ty)
  | .group inner span slot, e', ty, h, hfresh => by
    rw [check] at h
    split at h
    · rename_i hbinary
      obtain ⟨inner', innerTy, hinner, h⟩ := Checked.andThen_eq_pass h
      obtain ⟨hty, rfl⟩ := settle_eq_pass h
      cases hty
      have hparts : noted → inner.IsFresh ∧ slot = none := fun hn => isFresh_iff.1 (hfresh hn)
      have htyped := typed_of_check inner hinner fun hn => (hparts hn).1
      exact .group (isBinary_of_check hinner hbinary) htyped
        (Slot.notes_fill (fun hn => (hparts hn).2) ty)
    · exact absurd h Checked.fail_ne_pass
  | .binary op left right span slot, e', ty, h, hfresh => by
    rw [check] at h
    obtain ⟨left', leftTy, hleft, h⟩ := Checked.andThen_eq_pass h
    obtain ⟨right', rightTy, hright, h⟩ := Checked.andThen_eq_pass h
    obtain ⟨hty, rfl⟩ := settle_eq_pass h
    have hparts : noted → left.IsFresh ∧ right.IsFresh ∧ slot = none :=
      fun hn => isFresh_iff.1 (hfresh hn)
    have hl := typed_of_check left hleft fun hn => (hparts hn).1
    have hr := typed_of_check right hright fun hn => (hparts hn).2.1
    exact .binary hl hr hty (.inl trivial) (Slot.notes_fill (fun hn => (hparts hn).2.2) ty)
  | .var name binding span slot, e', ty, h, hfresh => by
    rw [check] at h
    split at h
    · rename_i found hfound
      obtain ⟨hty, rfl⟩ := settle_eq_pass h
      cases hty
      have hslots : noted → binding = none ∧ slot = none := fun hn => isFresh_iff.1 (hfresh hn)
      exact .var (Scope.findVariable_eq_ok.1 hfound)
        (Slot.notes_fill (fun hn => (hslots hn).1) _) (Slot.notes_fill (fun hn => (hslots hn).2) _)
    · exact absurd h Checked.fail_ne_pass
  | .element name offset binding span slot, e', ty, h, hfresh => by
    rw [check] at h
    obtain ⟨offset', offsetTy, hoffset, h⟩ := Checked.andThen_eq_pass h
    split at h
    · rename_i bound elementTy hlist
      obtain ⟨_, hinteger, hlist⟩ := Except.bind_ok_inv hlist
      have hinteger := Ty.requireSame_eq_ok hinteger
      subst hinteger
      obtain ⟨found, hfound, rfl, hbound⟩ := lookupList_eq_ok hlist
      obtain ⟨hty, rfl⟩ := settle_eq_pass h
      cases hty
      have hparts : noted → offset.IsFresh ∧ binding = none ∧ slot = none :=
        fun hn => isFresh_iff.1 (hfresh hn)
      have htyped := typed_of_check offset hoffset fun hn => (hparts hn).1
      exact .element htyped hfound hbound (Slot.notes_fill (fun hn => (hparts hn).2.1) _)
        (Slot.notes_fill (fun hn => (hparts hn).2.2) _)
    · exact absurd h Checked.fail_ne_pass
  | .call name arguments binding span slot, e', ty, h, hfresh => by
    rw [check] at h
    split at h
    · rename_i callee hcallee
      have hfound := Scope.findFunction_eq_ok.1 hcallee
      have harity : arguments.length = callee.binding.parameterTypes.length :=
        (Scope.callee?_eq_some hfound).2.1.symm
      obtain ⟨arguments', _, harguments, h⟩ := Checked.andThen_eq_pass h
      obtain ⟨hty, rfl⟩ := settle_eq_pass h
      cases hty
      have hparts : noted → AllFresh arguments ∧ binding = none ∧ slot = none :=
        fun hn => isFresh_iff.1 (hfresh hn)
      obtain ⟨tys, htys, haccepts, hlength⟩ := allTyped_of_checkArguments arguments harity
        harguments fun hn => (hparts hn).1
      rw [hlength] at hfound
      exact .call hfound htys haccepts (Slot.notes_fill (fun hn => (hparts hn).2.1) _)
        (Slot.notes_fill (fun hn => (hparts hn).2.2) _)
    · exact absurd h Checked.fail_ne_pass
  | .list elements span slot, e', ty, h, hfresh => by
    rw [check] at h
    obtain ⟨elements', found, helements, h⟩ := Checked.andThen_eq_pass h
    have hparts : noted → AllFresh elements ∧ slot = none := fun hn => isFresh_iff.1 (hfresh hn)
    obtain ⟨tys, htys, hall, -, hempty⟩ := allTyped_of_checkElements elements helements
      fun hn => (hparts hn).1
    cases found with
    | none => exact absurd h Checked.fail_ne_pass
    | some elementTy =>
      obtain ⟨hty, rfl⟩ := settle_eq_pass h
      cases hty
      have hne : tys ≠ [] := by
        intro hnil
        cases hempty rfl hnil
      have hsame : ∀ t ∈ tys, t = elementTy := fun t ht => (Option.some.inj (hall t ht)).symm
      exact .list htys hne hsame (Slot.notes_fill (fun hn => (hparts hn).2) _)

/-- Arguments that pass a check have types that the parameters accept. -/
theorem allTyped_of_checkArguments : ∀ (es : List Expr) {parameters : List Ty} {es' : List Expr}
    {u : Unit}, es.length = parameters.length →
    checkArguments known es parameters = .pass es' u → (noted → AllFresh es) →
    ∃ tys, AllTyped noted True known es' tys ∧
      List.Forall₂ (fun parameter ty => parameter.accepts ty = true) parameters tys ∧
      es.length = es'.length
  | [], [], es', u, _, h, _ => by
    rw [checkArguments.eq_def] at h
    cases h
    exact ⟨[], .nil, .nil, rfl⟩
  | e :: rest, parameter :: parameters, es', u, hlength, h, hfresh => by
    rw [checkArguments] at h
    obtain ⟨e', ty, he, h⟩ := Checked.andThen_eq_pass h
    split at h
    · rename_i haccepts
      obtain ⟨rest', hrest, rfl⟩ := Checked.inside_eq_pass h
      have hparts : noted → e.IsFresh ∧ AllFresh rest := fun hn => allFresh_cons.1 (hfresh hn)
      have htyped := typed_of_check e he fun hn => (hparts hn).1
      obtain ⟨tys, htys, hall, hlen⟩ := allTyped_of_checkArguments rest
        (Nat.succ.inj hlength) hrest fun hn => (hparts hn).2
      have haccepted := Ty.requireAccepts_eq_ok haccepts
      exact ⟨ty :: tys, .cons htyped htys, .cons haccepted hall, congrArg Nat.succ hlen⟩
    · exact absurd h Checked.fail_ne_pass

/-- Elements that pass a check have one type, the expected one if there is one. -/
theorem allTyped_of_checkElements : ∀ (es : List Expr) {expected : Option Ty} {es' : List Expr}
    {found : Option Ty}, checkElements known expected es = .pass es' found →
    (noted → AllFresh es) →
    ∃ tys, AllTyped noted True known es' tys ∧ (∀ t ∈ tys, found = some t) ∧
      (∀ t, expected = some t → found = some t) ∧ (expected = none → tys = [] → found = none)
  | [], expected, es', found, h, _ => by
    rw [checkElements] at h
    cases h
    exact ⟨[], .nil, by simp, fun _ h => h, fun h _ => h⟩
  | e :: rest, expected, es', found, h, hfresh => by
    rw [checkElements] at h
    obtain ⟨e', ty, he, h⟩ := Checked.andThen_eq_pass h
    split at h
    · rename_i hsame
      have hsame := Ty.requireSame_eq_ok hsame
      obtain ⟨rest', hrest, rfl⟩ := Checked.inside_eq_pass h
      have hparts : noted → e.IsFresh ∧ AllFresh rest := fun hn => allFresh_cons.1 (hfresh hn)
      have htyped := typed_of_check e he fun hn => (hparts hn).1
      obtain ⟨tys, htys, hall, hexpected, -⟩ := allTyped_of_checkElements rest hrest
        fun hn => (hparts hn).2
      have hfound := hexpected ty rfl
      refine ⟨ty :: tys, .cons htyped htys, ?_, ?_, ?_⟩
      · intro t ht
        rcases List.mem_cons.1 ht with rfl | ht
        · exact hfound
        · exact hall t ht
      · intro t ht
        rw [ht, Option.getD_some] at hsame
        rw [hfound, hsame]
      · intro _ hnil
        cases hnil
    · exact absurd h Checked.fail_ne_pass

end

end Expr

/-! ## Statements -/

section Statements

variable {types : TypeNames} {noted : Prop} {result : Ty}

theorem TypeNames.lookup_of_resolve {name : String} {span : Span} {ty : Ty}
    (h : types.resolve name span = .ok ty) : types.lookup name = some ty := by
  rw [TypeNames.resolve] at h
  cases hty : types.lookup name with
  | some t => rw [hty] at h; cases h; rfl
  | none => rw [hty] at h; cases h

/-- The parts of a declaration that pass a check declare a variable of the type of the check. -/
theorem declares_of_declarationTy {known : Scope} {name : String} {typeName : Option String}
    {value value' : Option Expr} {span : Span} {ty : Ty}
    (h : declarationTy types known name typeName value span = .pass value' ty)
    (hfresh : noted → Expr.OptionFresh value) :
    Declares types noted True known typeName value' ty := by
  rw [declarationTy] at h
  cases typeName with
  | none =>
    cases value with
    | none => exact absurd h Checked.fail_ne_pass
    | some expr =>
      obtain ⟨expr', exprTy, hexpr, h⟩ := Checked.andThen_eq_pass h
      cases h
      exact .inferred (Expr.typed_of_check expr hexpr fun hn => hfresh hn expr rfl)
  | some typeName =>
    cases hname : types.resolve typeName span with
    | error e =>
      simp only [Option.mapM_some, hname] at h
      exact absurd h Checked.fail_ne_pass
    | ok declared =>
      have hlookup := TypeNames.lookup_of_resolve hname
      simp only [Option.mapM_some, hname] at h
      cases value with
      | none =>
        cases h
        exact .named hlookup (Value.fits_nil trivial)
      | some expr =>
        obtain ⟨expr', exprTy, hexpr, h⟩ := Checked.andThen_eq_pass h
        obtain ⟨rfl, hverdict⟩ := Checked.done_eq_pass h
        cases hacc : declared.requireAccepts exprTy expr'.span with
        | error e => rw [hacc] at hverdict; cases hverdict
        | ok u =>
          rw [hacc] at hverdict
          cases hverdict
          exact .both hlookup (Expr.typed_of_check expr hexpr fun hn => hfresh hn expr rfl)
            (Ty.requireAccepts_eq_ok hacc)

/-- A condition that passes a check is a truth value. -/
theorem Expr.typed_of_checkCondition {known : Scope} {e e' : Expr} {u : Unit}
    (h : e.checkCondition known = .pass e' u) (hfresh : noted → e.IsFresh) :
    e'.Typed noted True known .boolean := by
  obtain ⟨e', ty, he, h⟩ := Checked.andThen_eq_pass h
  obtain ⟨rfl, h⟩ := Checked.done_eq_pass h
  have hty := Ty.requireSame_eq_ok h
  subst hty
  exact Expr.typed_of_check e he hfresh

/-- A check leaves a call what it is. -/
theorem Expr.isCall_of_check {known : Scope} {e e' : Expr} {ty : Ty}
    (h : e.check known = .pass e' ty) (hcall : e.isCall = true) : e'.isCall = true := by
  cases e with
  | call name arguments binding span slot =>
    rw [Expr.check] at h
    split at h
    · obtain ⟨arguments', -, -, h⟩ := Checked.andThen_eq_pass h
      obtain ⟨-, rfl⟩ := Expr.settle_eq_pass h
      rfl
    · exact absurd h Checked.fail_ne_pass
  | _ => cases hcall

/-- What is required of an assignment to a place whose slot says that it is mutable. -/
theorem Stmt.assignment_eq_ok {receiver value : Expr} {target source : Ty} {known after : Scope}
    {span : Span}
    (h : (do
      receiver.requireMutable span
      target.requireAccepts source value.span
      return known : Except Error Scope) = .ok after) :
    (∃ u, receiver.requireMutable span = .ok u) ∧ target.accepts source = true ∧
      after = known := by
  obtain ⟨u, hmutable, h⟩ := Except.bind_ok_inv h
  obtain ⟨_, haccepts, h⟩ := Except.bind_ok_inv h
  cases h
  exact ⟨⟨u, hmutable⟩, Ty.requireAccepts_eq_ok haccepts, rfl⟩

/-- What an assignment to a place needs if the slot of the place notes the binding. -/
theorem Expr.isMutable_of_requireMutable {place : Expr} {binding : Slot VariableBinding}
    {bound : VariableBinding} {span : Span} {u : Unit}
    (hplace : (∃ name placeSpan slot, place = .var name binding placeSpan slot) ∨
      ∃ name offset placeSpan slot, place = .element name offset binding placeSpan slot)
    (hnotes : binding.Notes noted bound) (h : place.requireMutable span = .ok u) :
    noted → bound.isMutable = true := by
  intro hn
  rw [hnotes hn] at hplace
  by_contra hfalse
  rw [Bool.not_eq_true] at hfalse
  rcases hplace with ⟨name, placeSpan, slot, rfl⟩ | ⟨name, offset, placeSpan, slot, rfl⟩ <;>
    (rw [Expr.requireMutable, hfalse] at h; cases h)

namespace Stmt

/-- A receiver that passes a check is a variable or an element of a list; its slot notes the
variable, and says whether it is mutable. -/
theorem typed_assignment {known after : Scope} {receiver receiver' value' : Expr}
    {target source : Ty} {span : Span} (hplace : receiver.isPlace = true)
    (hreceiver : receiver.check known = .pass receiver' target)
    (hfresh : noted → receiver.IsFresh) (hvalue : value'.Typed noted True known source)
    (h : (do
      receiver'.requireMutable span
      target.requireAccepts source value'.span
      return known : Except Error Scope) = .ok after) :
    Stmt.Typed types noted True result known (.assignment receiver' value' span) after := by
  obtain ⟨⟨u, hmutable⟩, haccepts, rfl⟩ := assignment_eq_ok h
  have htyped := Expr.typed_of_check receiver hreceiver hfresh
  cases receiver with
  | var name binding place slot =>
    rw [Expr.check] at hreceiver
    split at hreceiver
    · obtain ⟨-, rfl⟩ := Expr.settle_eq_pass hreceiver
      cases htyped with
      | var hfound hbinding hslot =>
        have hmut := Expr.isMutable_of_requireMutable (.inl ⟨_, _, _, rfl⟩) hbinding hmutable
        exact .assigned (.var hfound hbinding hslot) hfound hvalue haccepts hmut
    · exact absurd hreceiver Checked.fail_ne_pass
  | element name offset binding place slot =>
    rw [Expr.check] at hreceiver
    obtain ⟨offset', offsetTy, -, hreceiver⟩ := Checked.andThen_eq_pass hreceiver
    split at hreceiver
    · obtain ⟨-, rfl⟩ := Expr.settle_eq_pass hreceiver
      cases htyped with
      | element hoffset hfound hlist hbinding hslot =>
        have hmut := Expr.isMutable_of_requireMutable (.inr ⟨_, _, _, _, rfl⟩) hbinding hmutable
        exact .assignedElement (.element hoffset hfound hlist hbinding hslot) hoffset hfound hlist
          hvalue haccepts hmut
    · exact absurd hreceiver Checked.fail_ne_pass
  | _ => cases hplace

mutual

/-- A statement that passes a check is well typed. -/
theorem typed_of_check : ∀ (stmt : Stmt) {known after : Scope} {stmt' : Stmt},
    stmt.check types (some result) known = .pass stmt' after → (noted → stmt.IsFresh) →
    Stmt.Typed types noted True result known stmt' after
  | .expression expr span, known, after, stmt', h, hfresh => by
    rw [check] at h
    split at h
    · rename_i hcall
      obtain ⟨expr', ty, hexpr, h⟩ := Checked.andThen_eq_pass h
      cases h
      have htyped := Expr.typed_of_check expr hexpr fun hn => isFresh_iff.1 (hfresh hn)
      exact .expression (Expr.isCall_of_check hexpr hcall) htyped
    · exact absurd h Checked.fail_ne_pass
  | .declaration name typeName value binding span, known, after, stmt', h, hfresh => by
    rw [check] at h
    obtain ⟨value', ty, hty, h⟩ := Checked.andThen_eq_pass h
    split at h
    · rename_i next hadd
      cases h
      have hparts : noted → Expr.OptionFresh value ∧ binding = none :=
        fun hn => isFresh_iff.1 (hfresh hn)
      have hdeclares := declares_of_declarationTy hty fun hn => (hparts hn).1
      exact .declaration hdeclares hadd (Slot.notes_fill (fun hn => (hparts hn).2) _)
    · exact absurd h Checked.fail_ne_pass
  | .assignment receiver value span, known, after, stmt', h, hfresh => by
    rw [check] at h
    split at h
    · rename_i hplace
      obtain ⟨receiver', target, hreceiver, h⟩ := Checked.andThen_eq_pass h
      obtain ⟨value', source, hvalue, h⟩ := Checked.andThen_eq_pass h
      obtain ⟨rfl, hverdict⟩ := Checked.done_eq_pass h
      have hparts : noted → receiver.IsFresh ∧ value.IsFresh :=
        fun hn => isFresh_iff.1 (hfresh hn)
      have htyped := Expr.typed_of_check value hvalue fun hn => (hparts hn).2
      exact typed_assignment hplace hreceiver (fun hn => (hparts hn).1) htyped hverdict
    · exact absurd h Checked.fail_ne_pass
  | .ifElse condition thenBody elseBody span, known, after, stmt', h, hfresh => by
    rw [check] at h
    obtain ⟨condition', _, hcondition, h⟩ := Checked.andThen_eq_pass h
    split at h
    · exact absurd h Checked.fail_ne_pass
    · obtain ⟨thenBody', afterThen, hthen, h⟩ := Checked.andThen_eq_pass h
      obtain ⟨elseBody', afterElse, helse, h⟩ := Checked.andThen_eq_pass h
      cases h
      have hparts : noted → condition.IsFresh ∧ BlockFresh thenBody ∧ BlockFresh elseBody :=
        fun hn => isFresh_iff.1 (hfresh hn)
      have hc := Expr.typed_of_checkCondition hcondition fun hn => (hparts hn).1
      have ht := blockTyped_of_checkBlock thenBody hthen fun hn => (hparts hn).2.1
      have he := blockTyped_of_checkBlock elseBody helse fun hn => (hparts hn).2.2
      exact .ifElse hc ht he
  | .switch condition cases span, known, after, stmt', h, hfresh => by
    rw [check] at h
    obtain ⟨condition', ty, hcondition, h⟩ := Checked.andThen_eq_pass h
    split at h
    · exact absurd h Checked.fail_ne_pass
    · rename_i hne
      obtain ⟨cases', _, hcases, h⟩ := Checked.andThen_eq_pass h
      cases h
      have hparts : noted → condition.IsFresh ∧ CasesFresh cases :=
        fun hn => isFresh_iff.1 (hfresh hn)
      have hcases_ne : cases ≠ [] := by simpa using hne
      have hc := Expr.typed_of_check condition hcondition fun hn => (hparts hn).1
      have harms := casesTyped_of_checkCases cases hcases_ne hcases fun hn => (hparts hn).2
      exact .switch hc harms
  | .whileLoop condition body span, known, after, stmt', h, hfresh => by
    rw [check] at h
    obtain ⟨condition', _, hcondition, h⟩ := Checked.andThen_eq_pass h
    obtain ⟨body', _, hbody, h⟩ := Checked.andThen_eq_pass h
    cases h
    have hparts : noted → condition.IsFresh ∧ BlockFresh body := fun hn => isFresh_iff.1 (hfresh hn)
    have hc := Expr.typed_of_checkCondition hcondition fun hn => (hparts hn).1
    have hb := blockTyped_of_checkBlock body hbody fun hn => (hparts hn).2
    exact .whileLoop hc hb
  | .ret value span, known, after, stmt', h, hfresh => by
    rw [check] at h
    obtain ⟨value', ty, hvalue, h⟩ := Checked.andThen_eq_pass h
    obtain ⟨rfl, hverdict⟩ := Checked.done_eq_pass h
    rw [Ty.requireResult] at hverdict
    cases hsame : result.requireSame ty value'.span with
    | error e => rw [hsame] at hverdict; cases hverdict
    | ok u =>
      rw [hsame] at hverdict
      cases hverdict
      have hty := Ty.requireSame_eq_ok hsame
      subst hty
      exact .ret (Expr.typed_of_check value hvalue fun hn => isFresh_iff.1 (hfresh hn))

/-- Statements that pass a check are well typed. -/
theorem blockTyped_of_checkBlock : ∀ (block : List Stmt) {known after : Scope}
    {block' : List Stmt}, checkBlock types (some result) block known = .pass block' after →
    (noted → BlockFresh block) → BlockTyped types noted True result known block' after
  | [], known, after, block', h, _ => by
    rw [checkBlock] at h
    cases h
    exact .nil
  | stmt :: rest, known, after, block', h, hfresh => by
    rw [checkBlock] at h
    obtain ⟨stmt', next, hstmt, h⟩ := Checked.andThen_eq_pass h
    obtain ⟨rest', hrest, rfl⟩ := Checked.inside_eq_pass h
    have hparts : noted → stmt.IsFresh ∧ BlockFresh rest := fun hn => blockFresh_cons.1 (hfresh hn)
    have hs := typed_of_check stmt hstmt fun hn => (hparts hn).1
    have hr := blockTyped_of_checkBlock rest hrest fun hn => (hparts hn).2
    exact .cons hs hr

/-- Arms that pass a check are well typed, if there is one. -/
theorem casesTyped_of_checkCases : ∀ (cases : List Case) {known : Scope} {ty : Ty}
    {cases' : List Case} {u : Unit}, cases ≠ [] →
    checkCases types (some result) known ty cases = .pass cases' u → (noted → CasesFresh cases) →
    CasesTyped types noted True result known ty cases'
  | [], _, _, _, _, hne, _, _ => absurd rfl hne
  | .mk (some value) body span :: rest, known, ty, cases', u, _, h, hfresh => by
    rw [checkCases, Case.check] at h
    obtain ⟨arm', _, harm, h⟩ := Checked.andThen_eq_pass h
    split at harm
    · exact absurd harm Checked.fail_ne_pass
    · rename_i hlast
      obtain ⟨value', valueTy, hvalue, harm⟩ := Checked.andThen_eq_pass harm
      split at harm
      · rename_i hsame
        rw [Ty.requireSame_eq_ok hsame] at hvalue
        obtain ⟨body', after, hbody, hpass⟩ := Checked.andThen_eq_pass harm
        cases hpass
        obtain ⟨rest', hrest, rfl⟩ := Checked.inside_eq_pass h
        have hparts : noted →
            (Expr.OptionFresh (some value) ∧ BlockFresh body) ∧ CasesFresh rest :=
          fun hn => casesFresh_cons.1 (hfresh hn)
        have hrest_ne : rest ≠ [] := by simpa using hlast
        have hv := Expr.typed_of_check value hvalue fun hn => (hparts hn).1.1 value rfl
        have hb := blockTyped_of_checkBlock body hbody fun hn => (hparts hn).1.2
        have hr := casesTyped_of_checkCases rest hrest_ne hrest fun hn => (hparts hn).2
        exact .cons hv hb hr
      · exact absurd harm Checked.fail_ne_pass
  | .mk none body span :: rest, known, ty, cases', u, _, h, hfresh => by
    rw [checkCases, Case.check] at h
    obtain ⟨arm', _, harm, h⟩ := Checked.andThen_eq_pass h
    split at harm
    · rename_i hlast
      have hnil : rest = [] := by simpa using hlast
      subst hnil
      obtain ⟨body', after, hbody, harm⟩ := Checked.andThen_eq_pass harm
      cases harm
      rw [checkCases] at h
      cases h
      have hb := blockTyped_of_checkBlock body hbody fun hn => (casesFresh_cons.1 (hfresh hn)).1.2
      exact .last hb
    · exact absurd harm Checked.fail_ne_pass

end

end Stmt

end Statements

/-! ## Programs -/

section Programs

variable {types : TypeNames} {noted : Prop}

/-- Globals that pass their checks are well typed one after the other. -/
theorem globalsTyped_of_each : ∀ {gs gs' : List Global} {known after : Scope},
    Checked.each (Global.check types) gs known = .pass gs' after →
    (noted → ∀ g ∈ gs, Expr.OptionFresh g.value ∧ g.binding = none) →
    GlobalsTyped types noted True known gs' after := by
  intro gs
  induction gs with
  | nil =>
    intro gs' known after h _
    cases h
    exact .nil
  | cons g rest ih =>
    intro gs' known after h hfresh
    rw [Checked.each] at h
    obtain ⟨g', next, hg, h⟩ := Checked.andThen_eq_pass h
    obtain ⟨rest', hrest, rfl⟩ := Checked.inside_eq_pass h
    have hrest' := ih hrest fun hn x hx => hfresh hn x (List.mem_cons_of_mem _ hx)
    rw [Global.check] at hg
    split at hg
    · exact absurd hg Checked.fail_ne_pass
    · obtain ⟨value', ty, hty, hg⟩ := Checked.andThen_eq_pass hg
      dsimp only at hg
      split at hg
      · rename_i scope hadd
        cases hg
        have hparts : noted → Expr.OptionFresh g.value ∧ g.binding = none :=
          fun hn => hfresh hn g List.mem_cons_self
        have hdeclares := declares_of_declarationTy hty fun hn => (hparts hn).1
        exact .cons hdeclares hadd (Slot.notes_fill (fun hn => (hparts hn).2) _) hrest'
      · exact absurd hg Checked.fail_ne_pass

/-- Functions that can be declared are declared, and only their slots are filled. -/
theorem functionsDeclared_of_declareAll : ∀ {fs fs' : List FunctionDef} {index : Nat}
    {known after : Scope} {bindings : List FunctionBinding},
    FunctionDef.declareAll types index fs known = .pass fs' (after, bindings) →
    (noted → ∀ f ∈ fs, f.binding = none) →
    FunctionsDeclared types noted known index fs' bindings after ∧
      List.Forall₂ (fun f f' => ∃ slot, f' = { f with binding := slot }) fs fs' := by
  intro fs
  induction fs with
  | nil =>
    intro fs' index known after bindings h _
    cases h
    exact ⟨.nil, .nil⟩
  | cons f rest ih =>
    intro fs' index known after bindings h hfresh
    rw [FunctionDef.declareAll] at h
    obtain ⟨f', ⟨next, binding⟩, hf, h⟩ := Checked.andThen_eq_pass h
    obtain ⟨rest', ⟨last, bindings'⟩, hrest, h⟩ := Checked.andThen_eq_pass h
    cases h
    obtain ⟨hdeclared, hsame⟩ :=
      ih hrest fun hn x hx => hfresh hn x (List.mem_cons_of_mem _ hx)
    rw [FunctionDef.declare] at hf
    split at hf
    · rename_i scope bound hdecl
      cases hf
      obtain ⟨_, hsignature, hdecl⟩ := Except.bind_ok_inv hdecl
      obtain ⟨_, hadd, hdecl⟩ := Except.bind_ok_inv hdecl
      cases hdecl
      have hslot : noted → f.binding = none := fun hn => hfresh hn f List.mem_cons_self
      exact ⟨.cons hsignature hadd (Slot.notes_fill hslot _) hdeclared, .cons ⟨_, rfl⟩ hsame⟩
    · exact absurd hf Checked.fail_ne_pass

/-- Other bodies change nothing about how functions are declared. -/
theorem FunctionsDeclared.with_bodies {known after : Scope} {index : Nat}
    {fs fs' : List FunctionDef} {bindings : List FunctionBinding}
    (h : FunctionsDeclared types noted known index fs bindings after)
    (hsame : List.Forall₂ (fun f f' => ∃ body, f' = { f with body := body }) fs fs') :
    FunctionsDeclared types noted known index fs' bindings after := by
  induction h generalizing fs' with
  | nil =>
    cases hsame
    exact .nil
  | cons hsignature hadd hbinding _ ih =>
    cases hsame with
    | cons hf hrest =>
      obtain ⟨body, rfl⟩ := hf
      exact .cons hsignature hadd hbinding (ih hrest)

/-- A function whose body passes its check is well typed, and only its body is annotated. -/
theorem FunctionDef.typed_of_checkFunction {a : Analyzer} {known : Scope} {f f' : FunctionDef}
    {binding : FunctionBinding} {u : Unit} (hsignature : f.signature a.types = .ok binding)
    (hnote : f.binding.Notes noted binding)
    (h : (a.checkFunction known f binding).1 = .pass f' u)
    (hfresh : noted → Stmt.BlockFresh f.body) :
    FunctionDef.Typed a.types noted True known f' binding ∧
      ∃ body, f' = { f with body := body } := by
  rw [Analyzer.checkFunction] at h
  split at h
  · rename_i inside hparameters
    dsimp only at h
    obtain ⟨body', last, hbody, h⟩ := Checked.andThen_eq_pass h
    cases h
    have hblock := Stmt.blockTyped_of_checkBlock f.body hbody hfresh
    exact ⟨⟨hsignature, hnote, ⟨inside, last, hparameters, hblock⟩, .inl (Value.fits_nil trivial)⟩,
      body', rfl⟩
  · exact absurd h Checked.fail_ne_pass

/-- Functions whose bodies pass their checks are well typed, and only their bodies are annotated. -/
theorem typed_of_checkFunctions {known known' : Scope} {index : Nat} {fs : List FunctionDef}
    {bindings : List FunctionBinding} {after : Scope} {u : Unit}
    (hdeclared : FunctionsDeclared types noted known' index fs bindings after) :
    ∀ {a : Analyzer} {fs' : List FunctionDef}, a.types = types →
    (a.checkFunctions known fs bindings).1 = .pass fs' u →
    (noted → ∀ f ∈ fs, Stmt.BlockFresh f.body) →
    List.Forall₂ (FunctionDef.Typed types noted True known) fs' bindings ∧
      List.Forall₂ (fun f f' => ∃ body, f' = { f with body := body }) fs fs' := by
  induction hdeclared with
  | nil =>
    intro a fs' _ h _
    rw [Analyzer.checkFunctions.eq_def] at h
    cases h
    exact ⟨.nil, .nil⟩
  | @cons _ _ _ _ f rest binding bindings hsignature _ hbinding _ ih =>
    intro a fs' htypes h hfresh
    rw [Analyzer.checkFunctions_cons] at h
    obtain ⟨f', _, hf, h⟩ := Checked.andThen_eq_pass h
    obtain ⟨rest', hrest, rfl⟩ := Checked.inside_eq_pass h
    subst htypes
    obtain ⟨htyped, hsame⟩ := ih Analyzer.types_checkFunction hrest
      fun hn x hx => hfresh hn x (List.mem_cons_of_mem _ hx)
    obtain ⟨hfunction, hbody⟩ := FunctionDef.typed_of_checkFunction hsignature hbinding hf
      fun hn => hfresh hn f List.mem_cons_self
    exact ⟨.cons hfunction htyped, .cons hbody hsame⟩

/-- The requirement on `main`. -/
theorem Program.entryPoint_eq_ok {p : Program} {u : Unit} (h : p.entryPoint types = .ok u) :
    ∃ f ∈ p.functions, f.isMain = true ∧ f.returnTy types = .ok .integer := by
  rw [Program.entryPoint] at h
  split at h
  · cases h
  · rename_i f hf
    split at h
    · rename_i hty
      exact ⟨f, List.mem_of_find?_eq_some hf, List.find?_some hf, hty⟩
    · cases h
    · cases h

/-- A function keeps its place when its slot and its body are annotated. -/
theorem mem_of_annotated {fs fs' : List FunctionDef} {R : FunctionDef → FunctionDef → Prop}
    (h : List.Forall₂ R fs fs') {f : FunctionDef} (hf : f ∈ fs) : ∃ f' ∈ fs', R f f' := by
  induction h with
  | nil => cases hf
  | cons hab _ ih =>
    rcases List.mem_cons.1 hf with rfl | hf
    · exact ⟨_, List.mem_cons_self, hab⟩
    · obtain ⟨f', hf', hR⟩ := ih hf
      exact ⟨f', List.mem_cons_of_mem _ hf', hR⟩

/-- **The checker keeps to the rules.**  What is left of an accepted program is well typed, and
notes what the rules find if the program was fresh. -/
theorem Program.typed_of_analyze {p : Program} (h : (p.analyze types).verdict = .ok ())
    (hfresh : noted → p.IsFresh) :
    ∃ early known, (p.analyze types).node.Typed types noted True early known := by
  have hpass : p.analyze types = .pass (p.analyze types).node () := by
    rw [Checked.pass, ← h]
  generalize (p.analyze types).node = p' at hpass
  clear h
  rw [Program.analyze, Analyzer.analyze_eq] at hpass
  obtain ⟨declared, ⟨known, bindings⟩, hdeclare, hpass⟩ := Checked.andThen_eq_pass hpass
  obtain ⟨functions', hbodies, rfl⟩ := Checked.inside_eq_pass hpass
  rw [Program.declare] at hdeclare
  split at hdeclare
  · exact absurd hdeclare Checked.fail_ne_pass
  · rename_i hentry
    obtain ⟨globals, early, hglobals, hdeclare⟩ := Checked.andThen_eq_pass hdeclare
    obtain ⟨functions, hfunctions, rfl⟩ := Checked.inside_eq_pass hdeclare
    obtain ⟨hdeclared, hslots⟩ := functionsDeclared_of_declareAll hfunctions
      fun hn f hf => ((hfresh hn).function hf).2
    have hbodyFresh : noted → ∀ f ∈ functions, Stmt.BlockFresh f.body := by
      intro hn f hf
      obtain ⟨f₀, hf₀, slot, rfl⟩ := mem_of_annotated hslots.flip hf
      exact ((hfresh hn).function hf₀).1
    obtain ⟨htyped, hsame⟩ := typed_of_checkFunctions hdeclared rfl hbodies hbodyFresh
    have hglobalsTyped := globalsTyped_of_each hglobals fun hn g hg => (hfresh hn).global hg
    refine ⟨early, known, hglobalsTyped, ⟨bindings, hdeclared.with_bodies hsame, htyped⟩, ?_⟩
    -- `main` is the same function before and after the two passes over the functions
    obtain ⟨f, hf, hmain, hty⟩ := Program.entryPoint_eq_ok hentry
    obtain ⟨f₁, hf₁, slot, rfl⟩ := mem_of_annotated hslots hf
    obtain ⟨f₂, hf₂, body, rfl⟩ := mem_of_annotated hsame hf₁
    exact ⟨_, hf₂, hmain, hty⟩

end Programs

end ImpTree
