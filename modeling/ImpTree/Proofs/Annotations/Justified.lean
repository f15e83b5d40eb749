import ImpTree.Proofs.Annotations.Places
import ImpTree.Proofs.Typing.Checker
import ImpTree.Tree.Build

/-!
# Annotations are complete and justified

The annotations that an accepted program is left with: every slot holds something, and what it holds
is what the place of its node asks for.

* `View.Shows` — what is in view at a place is what the checker knows there.
* `Expr.Typed.justified`, `Stmt.Typed.justified` — expressions and statements.
* `Program.annotations_justified` — **whole programs**.
-/

namespace ImpTree

/-! ## Names in scopes -/

namespace Scope

variable {s : Scope} {name : String} {arity : Nat}

/-- A variable that has just been declared is found, and hides nothing but its own name. -/
theorem var?_withVariable (v : Variable) :
    (s.withVariable v).var? name =
      if v.binding.name = name then some v else s.var? name := by
  obtain ⟨_ | ⟨f, rest⟩, root⟩ := s <;>
    by_cases h : v.binding.name = name <;>
      simp [var?, frames, withVariable, withInnermost, innermost, Frame.var?,
        List.findSome?_cons, h]

/-- A variable hides no function. -/
theorem callee?_withVariable (v : Variable) :
    (s.withVariable v).callee? name arity = s.callee? name arity := by
  obtain ⟨_ | ⟨f, rest⟩, root⟩ := s <;> rfl

/-- A function hides no variable. -/
theorem var?_withCallee (c : Callee) : (s.withCallee c).var? name = s.var? name := by
  obtain ⟨_ | ⟨f, rest⟩, root⟩ := s <;> rfl

/-- A function that has just been declared is found, and hides nothing but its own name with its
number of arguments. -/
theorem callee?_withCallee_eq (c : Callee) :
    (s.withCallee c).callee? name arity =
      if c.binding.name = name ∧ c.binding.arity = arity then some c
      else s.callee? name arity := by
  obtain ⟨_ | ⟨f, rest⟩, root⟩ := s <;>
    by_cases h : c.binding.name = name ∧ c.binding.arity = arity <;>
      simp [callee?, frames, withCallee, withInnermost, innermost, Frame.callee?,
        List.findSome?_cons, h]

end Scope

/-! ## What is in view is what is known -/

namespace View

variable {view : View} {known after : Scope}

/-- What the checker knows is in view: the slot of a variable's declaration holds the binding that
is known, and a function that is known is the one that a call means. -/
structure Shows (view : View) (known : Scope) : Prop where
  /-- The variables that are known are in view. -/
  slot? : ∀ {name found}, known.var? name = some found →
    view.slot? name = some (some found.binding)
  /-- The functions that are known can be called. -/
  calls : ∀ {name arity c}, known.callee? name arity = some c → view.Calls name arity c.binding

/-- Only the functions of the name and number of parameters matter to a call. -/
theorem Calls.of_callees {other : View} {name : String} {arity : Nat}
    {binding : FunctionBinding} (h : view.Calls name arity binding)
    (hsame : other.callees name arity = view.callees name arity) :
    other.Calls name arity binding := by
  cases h with
  | builtin hname harity hnone => exact .builtin hname harity (hsame.trans hnone)
  | declared honly hslot => exact .declared (hsame.trans honly) hslot

/-- A block shows what is around it. -/
theorem Shows.child (h : view.Shows known) : view.Shows known.child := ⟨h.slot?, h.calls⟩

/-- A declaration that fills its slot shows what it declares. -/
theorem Shows.withVariable {binding : VariableBinding} {value : Value} {span : Span}
    (h : view.Shows known) (hadd : known.addVariable binding value span = .ok after) :
    (view.withVariable binding.name (some binding)).Shows after := by
  obtain ⟨-, rfl⟩ := Scope.addVariable_eq_ok.1 hadd
  refine ⟨fun {name found} hfound => ?_, fun {name arity c} hc => ?_⟩
  · rw [Scope.var?_withVariable] at hfound
    split at hfound
    · rename_i hname
      cases hfound
      rw [View.slot?, View.withVariable, ← hname, List.lookup_cons_self]
    · rename_i hname
      rw [View.slot?, View.withVariable, List.lookup_cons, beq_false_of_ne (Ne.symm hname)]
      exact h.slot? hfound
  · rw [Scope.callee?_withVariable] at hc
    exact (h.calls hc).of_callees rfl

/-- Parameters show what they declare. -/
theorem Shows.withParameters {span : Span} : ∀ {names : List String} {tys : List Ty}
    {view : View} {known after : Scope}, view.Shows known → names.length = tys.length →
    declareParameters span names tys known = .ok after →
    (view.withParameters names tys).Shows after
  | [], [], view, known, after, h, _, hparameters => by
    cases hparameters
    exact h
  | name :: names, ty :: tys, view, known, after, h, hlength, hparameters => by
    rw [declareParameters] at hparameters
    obtain ⟨next, hadd, hparameters⟩ := Except.bind_ok_inv hparameters
    exact (h.withVariable hadd).withParameters (Nat.succ.inj hlength) hparameters

end View

/-! ## Expressions -/

/-- A slot that holds an annotation is full. -/
theorem Slot.Notes.isSome {α : Type} {slot : Slot α} {a : α} (h : slot.Notes True a) :
    slot.isSome := Option.isSome_iff_exists.2 ⟨a, h trivial⟩

/-- A constant in range has its own type. -/
theorem Literal.kind_of_ty {value : Literal} {span : Span} {ty : Ty}
    (h : value.ty span = .ok ty) : ty = value.kind := by
  cases value with
  | integer n =>
    rw [Literal.ty] at h
    split at h
    · cases h
      rfl
    · cases h
  | decimal d =>
    rw [Literal.ty] at h
    split at h
    · cases h
    · cases h
      rfl
  | _ =>
    cases h
    rfl

namespace Expr

variable {missing : Prop} {known : Scope} {view : View}

/-- What a well-typed expression notes. -/
theorem allTyped_ty {es : List Expr} {tys : List Ty} (h : AllTyped True missing known es tys) :
    es.map Expr.ty = tys.map some := by
  induction es generalizing tys with
  | nil =>
    cases h
    rfl
  | cons e rest ih =>
    cases h with
    | cons he hrest => rw [List.map_cons, List.map_cons, he.ty_eq trivial, ih hrest]

/-- The annotations of a well-typed expression are what its place asks for. -/
theorem Typed.justified {e : Expr} {ty : Ty} (h : e.Typed True missing known ty)
    (hview : view.Shows known) : Place.Justified ⟨view, e⟩ := by
  cases h with
  | literal hty hslot =>
    exact (hslot trivial).trans (congrArg some (Literal.kind_of_ty hty))
  | group hbinary hinner hslot => exact ⟨_, hinner.ty_eq trivial, hslot trivial⟩
  | binary hleft hright hty hdef hslot =>
    exact ⟨_, _, _, hleft.ty_eq trivial, hright.ty_eq trivial, hty, hslot trivial⟩
  | var hfound hbinding hslot => exact ⟨_, hview.slot? hfound, hbinding trivial, hslot trivial⟩
  | element hoffset hfound hlist hbinding hslot =>
    exact ⟨_, _, hview.slot? hfound, hbinding trivial, hlist, hslot trivial, hoffset.ty_eq trivial⟩
  | call hfound harguments haccepts hbinding hslot =>
    exact ⟨_, _, hview.calls hfound, hbinding trivial, allTyped_ty harguments, haccepts,
      hslot trivial⟩
  | @list elements span slot tys t helements hne hsame hslot =>
    have htys : elements.map Expr.ty = tys.map some := allTyped_ty helements
    refine ⟨?_, t, fun e he => ?_, hslot trivial⟩
    · rintro rfl
      exact hne (List.map_eq_nil_iff.1 htys.symm)
    · have hmem : e.ty ∈ tys.map some := htys ▸ List.mem_map_of_mem he
      obtain ⟨t', ht', hty⟩ := List.mem_map.1 hmem
      rw [← hty, hsame t' ht']

mutual

/-- So are the annotations of its parts. -/
theorem Typed.parts_justified : ∀ {e : Expr} {ty : Ty}, e.Typed True missing known ty →
    view.Shows known → ∀ part ∈ e.parts, Place.Justified ⟨view, part⟩
  | .literal value span slot, _, h, hview => List.forall_mem_singleton.2 (h.justified hview)
  | .var name binding span slot, _, h, hview => List.forall_mem_singleton.2 (h.justified hview)
  | .group inner span slot, _, h, hview => by
    refine List.forall_mem_cons.2 ⟨h.justified hview, ?_⟩
    cases h with
    | group _ hinner _ => exact hinner.parts_justified hview
  | .binary op left right span slot, _, h, hview => by
    refine List.forall_mem_cons.2 ⟨h.justified hview, ?_⟩
    cases h with
    | binary hleft hright _ _ _ =>
      exact List.forall_mem_append.2
        ⟨hleft.parts_justified hview, hright.parts_justified hview⟩
  | .element name offset binding span slot, _, h, hview => by
    refine List.forall_mem_cons.2 ⟨h.justified hview, ?_⟩
    cases h with
    | element hoffset _ _ _ _ => exact hoffset.parts_justified hview
  | .call name arguments binding span slot, _, h, hview => by
    refine List.forall_mem_cons.2 ⟨h.justified hview, ?_⟩
    cases h with
    | call _ harguments _ _ _ => exact harguments.parts_justified hview
  | .list elements span slot, _, h, hview => by
    refine List.forall_mem_cons.2 ⟨h.justified hview, ?_⟩
    cases h with
    | list helements _ _ _ => exact helements.parts_justified hview

/-- So are those of several expressions and their parts. -/
theorem AllTyped.parts_justified : ∀ {es : List Expr} {tys : List Ty},
    AllTyped True missing known es tys → view.Shows known →
    ∀ part ∈ allParts es, Place.Justified ⟨view, part⟩
  | [], _, _, _ => List.forall_mem_nil _
  | e :: rest, _, h, hview => by
    cases h with
    | cons he hrest =>
      exact List.forall_mem_append.2
        ⟨he.parts_justified hview, hrest.parts_justified hview⟩

end

mutual

/-- The slots of a well-typed expression and its parts are full. -/
theorem Typed.notes_full : ∀ {e : Expr} {ty : Ty}, e.Typed True missing known ty →
    ∀ note ∈ e.notes, note.IsFull
  | .literal value span slot, _, h => by
    cases h with
    | literal _ hslot => exact List.forall_mem_singleton.2 hslot.isSome
  | .group inner span slot, _, h => by
    cases h with
    | group _ hinner hslot => exact List.forall_mem_cons.2 ⟨hslot.isSome, hinner.notes_full⟩
  | .binary op left right span slot, _, h => by
    cases h with
    | binary hleft hright _ _ hslot =>
      exact List.forall_mem_cons.2
        ⟨hslot.isSome, List.forall_mem_append.2 ⟨hleft.notes_full, hright.notes_full⟩⟩
  | .var name binding span slot, _, h => by
    cases h with
    | var _ hbinding hslot =>
      exact List.forall_mem_singleton.2 ⟨hslot.isSome, hbinding.isSome⟩
  | .element name offset binding span slot, _, h => by
    cases h with
    | element hoffset _ _ hbinding hslot =>
      exact List.forall_mem_cons.2 ⟨⟨hslot.isSome, hbinding.isSome⟩, hoffset.notes_full⟩
  | .call name arguments binding span slot, _, h => by
    cases h with
    | call _ harguments _ hbinding hslot =>
      exact List.forall_mem_cons.2 ⟨⟨hslot.isSome, hbinding.isSome⟩, harguments.notes_full⟩
  | .list elements span slot, _, h => by
    cases h with
    | list helements _ _ hslot =>
      exact List.forall_mem_cons.2 ⟨hslot.isSome, helements.notes_full⟩

/-- So are those of several expressions and their parts. -/
theorem AllTyped.notes_full : ∀ {es : List Expr} {tys : List Ty},
    AllTyped True missing known es tys → ∀ note ∈ listNotes es, note.IsFull
  | [], _, _ => List.forall_mem_nil _
  | e :: rest, _, h => by
    cases h with
    | cons he hrest => exact List.forall_mem_append.2 ⟨he.notes_full, hrest.notes_full⟩

end

/-- The places of a well-typed expression are justified. -/
theorem Typed.places_justified {e : Expr} {ty : Ty} (h : e.Typed True missing known ty)
    (hview : view.Shows known) : ∀ place ∈ e.places view, place.Justified :=
  List.forall_mem_map.2 (h.parts_justified hview)

end Expr

/-! ## Statements -/

section Statements

variable {types : TypeNames} {missing : Prop} {result : Ty} {known : Scope} {view : View}

/-- The places of a declaration's initial value are justified. -/
theorem Declares.places_justified {typeName : Option String} {value : Option Expr} {ty : Ty}
    (h : Declares types True missing known typeName value ty) (hview : view.Shows known) :
    ∀ place ∈ Expr.optionPlaces view value, place.Justified := by
  cases h with
  | named _ _ => exact List.forall_mem_nil _
  | both _ hvalue _ => exact hvalue.places_justified hview
  | inferred hvalue => exact hvalue.places_justified hview

/-- The slots of a declaration's initial value are full. -/
theorem Declares.notes_full {typeName : Option String} {value : Option Expr} {ty : Ty}
    (h : Declares types True missing known typeName value ty) :
    ∀ note ∈ Expr.optionNotes value, note.IsFull := by
  cases h with
  | named _ _ => exact List.forall_mem_nil _
  | both _ hvalue _ => exact hvalue.notes_full
  | inferred hvalue => exact hvalue.notes_full

namespace Stmt

mutual

/-- The places of a well-typed statement are justified, and what is known after it is in view
there. -/
theorem Typed.justified : ∀ {stmt : Stmt} {view : View} {known after : Scope},
    Stmt.Typed types True missing result known stmt after → view.Shows known →
    (∀ place ∈ stmt.places view, place.Justified) ∧ (stmt.viewAfter view).Shows after
  | .expression expr span, _, _, _, h, hview => by
    cases h with
    | expression _ hexpr => exact ⟨hexpr.places_justified hview, hview⟩
  | .declaration name typeName value binding span, _, _, _, h, hview => by
    cases h with
    | declaration hty hadd hbinding =>
      have hslot : binding = some _ := hbinding trivial
      subst hslot
      exact ⟨hty.places_justified hview, hview.withVariable hadd⟩
  | .assignment receiver value span, _, _, _, h, hview => by
    cases h with
    | assigned hplace _ hvalue _ _ =>
      exact ⟨List.forall_mem_append.2
        ⟨hplace.places_justified hview, hvalue.places_justified hview⟩, hview⟩
    | assignedElement hplace _ _ _ hvalue _ _ =>
      exact ⟨List.forall_mem_append.2
        ⟨hplace.places_justified hview, hvalue.places_justified hview⟩, hview⟩
  | .ifElse condition thenBody elseBody span, _, _, _, h, hview => by
    cases h with
    | ifElse hcondition hthen helse =>
      have hbranches := List.forall_mem_append.2
        ⟨hthen.places_justified hview.child, helse.places_justified hview.child⟩
      exact ⟨List.forall_mem_append.2 ⟨hcondition.places_justified hview, hbranches⟩, hview⟩
  | .switch condition cases span, _, _, _, h, hview => by
    cases h with
    | switch hcondition hcases =>
      exact ⟨List.forall_mem_append.2
        ⟨hcondition.places_justified hview, hcases.places_justified hview⟩, hview⟩
  | .whileLoop condition body span, _, _, _, h, hview => by
    cases h with
    | whileLoop hcondition hbody =>
      exact ⟨List.forall_mem_append.2
        ⟨hcondition.places_justified hview, hbody.places_justified hview.child⟩, hview⟩
  | .ret value span, _, _, _, h, hview => by
    cases h with
    | ret hvalue => exact ⟨hvalue.places_justified hview, hview⟩

/-- The places of a well-typed block are justified. -/
theorem BlockTyped.places_justified : ∀ {block : List Stmt} {view : View} {known after : Scope},
    BlockTyped types True missing result known block after → view.Shows known →
    ∀ place ∈ blockPlaces view block, place.Justified
  | [], _, _, _, _, _ => List.forall_mem_nil _
  | stmt :: rest, _, _, _, h, hview => by
    cases h with
    | cons hstmt hrest =>
      obtain ⟨hplaces, hafter⟩ := hstmt.justified hview
      exact List.forall_mem_append.2 ⟨hplaces, hrest.places_justified hafter⟩

/-- The places of the well-typed arms of a switch are justified. -/
theorem CasesTyped.places_justified : ∀ {cases : List Case} {view : View} {known : Scope} {ty : Ty},
    CasesTyped types True missing result known ty cases → view.Shows known →
    ∀ place ∈ casesPlaces view cases, place.Justified
  | [], _, _, _, _, _ => List.forall_mem_nil _
  | .mk value body span :: rest, _, _, _, h, hview => by
    cases h with
    | last hbody =>
      refine List.forall_mem_append.2 ⟨List.forall_mem_nil _, ?_⟩
      exact List.forall_mem_append.2
        ⟨hbody.places_justified hview.child, List.forall_mem_nil _⟩
    | cons hvalue hbody hrest =>
      refine List.forall_mem_append.2 ⟨hvalue.places_justified hview, ?_⟩
      exact List.forall_mem_append.2
        ⟨hbody.places_justified hview.child, hrest.places_justified hview⟩

end

mutual

/-- The slots of a well-typed statement are full. -/
theorem Typed.notes_full : ∀ {stmt : Stmt} {known after : Scope},
    Stmt.Typed types True missing result known stmt after → ∀ note ∈ stmt.notes, note.IsFull
  | .expression expr span, _, _, h => by
    cases h with
    | expression _ hexpr => exact hexpr.notes_full
  | .declaration name typeName value binding span, _, _, h => by
    cases h with
    | declaration hty _ hbinding => exact List.forall_mem_cons.2 ⟨hbinding.isSome, hty.notes_full⟩
  | .assignment receiver value span, _, _, h => by
    cases h with
    | assigned hplace _ hvalue _ _ =>
      exact List.forall_mem_append.2 ⟨hplace.notes_full, hvalue.notes_full⟩
    | assignedElement hplace _ _ _ hvalue _ _ =>
      exact List.forall_mem_append.2 ⟨hplace.notes_full, hvalue.notes_full⟩
  | .ifElse condition thenBody elseBody span, _, _, h => by
    cases h with
    | ifElse hcondition hthen helse =>
      have hbranches := List.forall_mem_append.2 ⟨hthen.notes_full, helse.notes_full⟩
      exact List.forall_mem_append.2 ⟨hcondition.notes_full, hbranches⟩
  | .switch condition cases span, _, _, h => by
    cases h with
    | switch hcondition hcases =>
      exact List.forall_mem_append.2 ⟨hcondition.notes_full, hcases.notes_full⟩
  | .whileLoop condition body span, _, _, h => by
    cases h with
    | whileLoop hcondition hbody =>
      exact List.forall_mem_append.2 ⟨hcondition.notes_full, hbody.notes_full⟩
  | .ret value span, _, _, h => by
    cases h with
    | ret hvalue => exact hvalue.notes_full

/-- So are the slots of a well-typed block. -/
theorem BlockTyped.notes_full : ∀ {block : List Stmt} {known after : Scope},
    BlockTyped types True missing result known block after →
    ∀ note ∈ blockNotes block, note.IsFull
  | [], _, _, _ => List.forall_mem_nil _
  | stmt :: rest, _, _, h => by
    cases h with
    | cons hstmt hrest => exact List.forall_mem_append.2 ⟨hstmt.notes_full, hrest.notes_full⟩

/-- So are the slots of the well-typed arms of a switch. -/
theorem CasesTyped.notes_full : ∀ {cases : List Case} {known : Scope} {ty : Ty},
    CasesTyped types True missing result known ty cases →
    ∀ note ∈ casesNotes cases, note.IsFull
  | [], _, _, _ => List.forall_mem_nil _
  | .mk value body span :: rest, _, _, h => by
    cases h with
    | last hbody =>
      exact List.forall_mem_append.2 ⟨hbody.notes_full, List.forall_mem_nil _⟩
    | cons hvalue hbody hrest =>
      refine List.forall_mem_append.2 ⟨?_, hrest.notes_full⟩
      exact List.forall_mem_append.2 ⟨hvalue.notes_full, hbody.notes_full⟩

end

end Stmt

end Statements

/-! ## Programs -/

section Programs

variable {types : TypeNames} {missing : Prop} {known after : Scope} {view : View}

/-- Where nothing but the built-in functions is known, nothing needs to be in view. -/
theorem View.shows_initial : View.Shows ⟨[], []⟩ .initial := by
  refine ⟨fun {name found} h => ?_, fun {name arity c} h => ?_⟩
  · cases h
  · obtain ⟨hname, harity, frame, hframe, hc⟩ := Scope.callee?_eq_some h
    have hroot : frame = Scope.initial.root := List.mem_singleton.1 hframe
    subst hroot
    obtain ⟨b, -, rfl⟩ := List.mem_map.1 hc
    exact .builtin (b := b) hname harity rfl

/-- The places of well-typed globals are justified, and what is known after them is in view
there. -/
theorem GlobalsTyped.justified : ∀ {gs : List Global} {view : View} {known after : Scope},
    GlobalsTyped types True missing known gs after → view.Shows known →
    (∀ place ∈ Global.allPlaces view gs, place.Justified) ∧
      (Global.viewAfterAll view gs).Shows after
  | [], _, _, _, h, hview => by
    cases h with
    | nil => exact ⟨List.forall_mem_nil _, hview⟩
  | g :: rest, _, _, _, h, hview => by
    cases h with
    | cons hty hadd hbinding hrest =>
      have hslot : g.binding = some _ := hbinding trivial
      have hnext := hview.withVariable hadd
      rw [← hslot] at hnext
      obtain ⟨hplaces, hafter⟩ := hrest.justified hnext
      exact ⟨List.forall_mem_append.2 ⟨hty.places_justified hview, hplaces⟩, hafter⟩

/-- Globals do not change which functions are in view. -/
@[simp]
theorem Global.functions_viewAfterAll : ∀ (gs : List Global) {view : View},
    (Global.viewAfterAll view gs).functions = view.functions
  | [], _ => rfl
  | _ :: rest, _ => functions_viewAfterAll rest

/-- Globals are declared in the root alone. -/
theorem GlobalsTyped.inner {gs : List Global}
    (h : GlobalsTyped types True missing known gs after) (hroot : known.inner = []) :
    after.inner = [] := by
  induction h with
  | nil => exact hroot
  | cons _ hadd _ _ ih =>
    obtain ⟨-, rfl⟩ := Scope.addVariable_eq_ok.1 hadd
    exact ih (Scope.inner_withVariable_eq_nil.2 hroot)

/-- The slots of well-typed globals are full. -/
theorem GlobalsTyped.notes_full {gs : List Global}
    (h : GlobalsTyped types True missing known gs after) :
    ∀ note ∈ gs.flatMap fun g => .global g.binding :: Expr.optionNotes g.value, note.IsFull := by
  induction h with
  | nil => exact List.forall_mem_nil _
  | cons hty _ hbinding _ ih =>
    exact List.forall_mem_append.2
      ⟨List.forall_mem_cons.2 ⟨hbinding.isSome, hty.notes_full⟩, ih⟩

/-- The view of a program after some of its functions have been declared, in a scope without frames
inside the root: a name that is not known is not the name of one of them. -/
structure View.ShowsDeclared (view : View) (known : Scope) : Prop extends view.Shows known where
  /-- There is the root alone. -/
  inner : known.inner = []
  /-- What is not known has not been declared. -/
  callees : ∀ {name arity}, known.callee? name arity = none → view.callees name arity = []

/-- The functions that a call may mean when there is one more. -/
theorem View.callees_append (f : FunctionDef) (name : String) (arity : Nat) :
    View.callees { view with functions := view.functions ++ [f] } name arity =
      view.callees name arity ++
        if f.name = name ∧ f.parameters.length = arity then [f] else [] := by
  rw [callees, callees, List.filter_append]
  by_cases h : f.name = name ∧ f.parameters.length = arity <;> simp [h]

/-- One more function comes into view when it is declared. -/
theorem View.ShowsDeclared.withCallee {f : FunctionDef} {binding : FunctionBinding} {index : Nat}
    (h : view.ShowsDeclared known) (hsignature : f.signature types = .ok binding)
    (hslot : f.binding = some binding)
    (hadd : known.addFunction ⟨binding, .declared index⟩ f.span = .ok after) :
    View.ShowsDeclared { view with functions := view.functions ++ [f] } after := by
  obtain ⟨hname, harity, -⟩ := FunctionDef.signature_eq_ok hsignature
  obtain ⟨hnew, rfl⟩ := Scope.addFunction_eq_ok.1 hadd
  -- the name and number of parameters are new in the whole scope, which is the root alone
  have hunknown : known.callee? binding.name binding.arity = none := by
    obtain ⟨inner, root⟩ := known
    have hroot : inner = [] := h.inner
    subst hroot
    rwa [Scope.callee?_root]
  refine ⟨⟨fun {name found} hfound => ?_, fun {name arity c} hc => ?_⟩,
    Scope.inner_withCallee_eq_nil.2 h.inner, fun {name arity} hc => ?_⟩
  · rw [Scope.var?_withCallee] at hfound
    exact h.slot? hfound
  · rw [Scope.callee?_withCallee_eq, hname, harity] at hc
    split at hc
    · rename_i hkey
      cases hc
      have hnone : view.callees name arity = [] := by
        rw [← hkey.1, ← hkey.2, ← hname, ← harity]
        exact h.callees hunknown
      refine .declared (f := f) ?_ hslot
      rw [callees_append, hnone, if_pos hkey, List.nil_append]
    · rename_i hkey
      refine (h.calls hc).of_callees ?_
      rw [callees_append, if_neg hkey, List.append_nil]
  · rw [Scope.callee?_withCallee_eq, hname, harity] at hc
    split at hc
    · cases hc
    · rename_i hkey
      rw [callees_append, if_neg hkey, List.append_nil]
      exact h.callees hc

/-- All functions are in view when they have been declared. -/
theorem View.ShowsDeclared.declared {index : Nat} {fs : List FunctionDef}
    {bindings : List FunctionBinding}
    (hdeclared : FunctionsDeclared types True known index fs bindings after) :
    ∀ {view : View}, view.ShowsDeclared known →
      View.ShowsDeclared { view with functions := view.functions ++ fs } after := by
  induction hdeclared with
  | nil =>
    intro view h
    rwa [List.append_nil]
  | @cons _ _ _ _ f rest _ _ hsignature hadd hbinding _ ih =>
    intro view h
    have hnext := ih (h.withCallee hsignature (hbinding trivial) hadd)
    rwa [List.append_assoc] at hnext

/-- The places of a well-typed function are justified. -/
theorem FunctionDef.Typed.places_justified {f : FunctionDef} {binding : FunctionBinding}
    (h : FunctionDef.Typed types True missing known f binding) (hview : view.Shows known) :
    ∀ place ∈ f.places view, place.Justified := by
  obtain ⟨inside, last, hparameters, hbody⟩ := h.body
  have hlength : f.parameters.length = binding.parameterTypes.length :=
    (FunctionDef.signature_eq_ok h.signature).2.1.symm
  have hinside := hview.child.withParameters hlength hparameters
  rw [FunctionDef.places, show f.binding = some binding from h.note trivial]
  exact hbody.places_justified hinside

/-- The slots of a well-typed function are full. -/
theorem FunctionDef.Typed.notes_full {f : FunctionDef} {binding : FunctionBinding}
    (h : FunctionDef.Typed types True missing known f binding) :
    ∀ note ∈ Note.function f.binding :: Stmt.blockNotes f.body, note.IsFull := by
  obtain ⟨inside, last, -, hbody⟩ := h.body
  exact List.forall_mem_cons.2 ⟨h.note.isSome, hbody.notes_full⟩

/-- What holds of every function that is well typed under a signature holds of all functions of a
well-typed program. -/
theorem FunctionDef.Typed.forall_mem {P : FunctionDef → Prop} {fs : List FunctionDef}
    {bindings : List FunctionBinding}
    (h : List.Forall₂ (FunctionDef.Typed types True missing known) fs bindings)
    (hP : ∀ f binding, FunctionDef.Typed types True missing known f binding → P f) :
    ∀ f ∈ fs, P f := by
  induction h with
  | nil => exact List.forall_mem_nil _
  | cons hf _ ih => exact List.forall_mem_cons.2 ⟨hP _ _ hf, ih⟩

/-- The slots of a well-typed program are full, and its places are justified. -/
theorem Program.Typed.annotations {p : Program} {early : Scope}
    (h : p.Typed types True missing early known) :
    (∀ note ∈ p.notes, note.IsFull) ∧ ∀ place ∈ p.places, place.Justified := by
  obtain ⟨bindings, hdeclared, hfunctions⟩ := h.functions
  obtain ⟨hglobals, hearly⟩ := h.globals.justified View.shows_initial
  have hview : View.Shows { Global.viewAfterAll ⟨[], []⟩ p.globals with functions := p.functions }
      known := by
    have hnone : (Global.viewAfterAll ⟨[], []⟩ p.globals).functions = [] :=
      Global.functions_viewAfterAll p.globals
    have hdeclaredNone : (Global.viewAfterAll ⟨[], []⟩ p.globals).ShowsDeclared early :=
      ⟨hearly, h.globals.inner rfl, fun _ => by rw [View.callees, hnone]; rfl⟩
    have hall := (View.ShowsDeclared.declared hdeclared hdeclaredNone).toShows
    rwa [hnone, List.nil_append] at hall
  refine ⟨List.forall_mem_append.2 ⟨h.globals.notes_full, ?_⟩,
    List.forall_mem_append.2 ⟨hglobals, ?_⟩⟩
  · exact List.forall_mem_flatMap.2
      (FunctionDef.Typed.forall_mem hfunctions fun f binding hf => hf.notes_full)
  · exact List.forall_mem_flatMap.2
      (FunctionDef.Typed.forall_mem hfunctions fun f binding hf => hf.places_justified hview)

/-- **Annotations are complete and justified.**  If a fresh program is accepted, every slot of the
program that the check leaves is full, every expression of it stands at one of its places, and the
annotations of each are what its place asks for. -/
theorem Program.annotations_justified {p : Program} (hfresh : p.IsFresh)
    (haccepted : (p.analyze types).verdict = .ok ()) :
    let q := (p.analyze types).node
    (∀ note ∈ q.notes, note.IsFull) ∧ q.places.map Place.expr = q.exprs ∧
      ∀ place ∈ q.places, place.Justified := by
  obtain ⟨early, known, htyped⟩ := Program.typed_of_analyze haccepted fun _ : True => hfresh
  obtain ⟨hfull, hjustified⟩ := htyped.annotations
  exact ⟨hfull, Program.exprs_places _, hjustified⟩

end Programs

/-- A program whose `main` hides a global text behind a list of integers of the same name. -/
def Program.hidingGlobal : Program :=
  ⟨[Build.global "x" false none (some (Build.literal (.string "outside")))],
    [Build.function "main" [] (some "Integer")
      [Build.declaration "x" none
          (some (Build.list [Build.literal (.integer 1), Build.literal (.integer 2)])),
        Build.ret (Build.element "x" (Build.literal (.integer 0)))]]⟩

/-- The element in `main` is noted with the binding of the list, and every place is justified. -/
theorem Program.annotations_justified_hidingGlobal :
    let q := (hidingGlobal.analyze .builtin).node
    (hidingGlobal.analyze .builtin).verdict = .ok () ∧
      Note.access (some .integer) (some ⟨"x", .list .integer, true⟩) ∈ q.notes ∧
      (∀ note ∈ q.notes, note.IsFull) ∧ ∀ place ∈ q.places, place.Justified := by
  have hfresh : hidingGlobal.IsFresh := rfl
  have haccepted : (hidingGlobal.analyze .builtin).verdict = .ok () := by cbv
  obtain ⟨hfull, -, hjustified⟩ := annotations_justified hfresh haccepted
  have hnotes : (hidingGlobal.analyze .builtin).node.notes =
      [.global (some ⟨"x", .string, false⟩), .literal (some .string),
        .function (some ⟨"main", [], .integer⟩),
        .declaration (some ⟨"x", .list .integer, true⟩), .list (some (.list .integer)),
        .literal (some .integer), .literal (some .integer),
        .access (some .integer) (some ⟨"x", .list .integer, true⟩),
        .literal (some .integer)] := by cbv
  refine ⟨haccepted, ?_, hfull, hjustified⟩
  rw [hnotes]
  decide

end ImpTree
