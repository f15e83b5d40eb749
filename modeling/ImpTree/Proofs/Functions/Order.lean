import ImpTree.Proofs.Annotations.Repeated
import ImpTree.Proofs.Functions.Checks
import ImpTree.Proofs.Scope.Declaring
import ImpTree.Proofs.Typing.Checker

/-!
# The order of functions

A check declares all functions before it checks their bodies.  Whether they can all be declared, and
what the bodies then know, does not depend on their order.

* `FunctionDef.Declarable` — when functions can be declared one after the other, in any order.
* `FunctionDef.declareAll_eq_pass` — what their declarations come to.
* `Program.analyze_eq_pass` — what an accepted program is made of.
* `Program.analyze_perm` — **an accepted program is accepted in every order of its functions**, and
  each function gets the same annotations.
-/

namespace ImpTree

variable {types : TypeNames}

/-! ## Declarations -/

/-- The signature of a function; where it has none, any types stand in its place. -/
def FunctionDef.signed (types : TypeNames) (f : FunctionDef) : FunctionBinding :=
  match f.signature types with
  | .ok binding => binding
  | .error _ => ⟨f.name, f.parameters.map fun _ => .any, .any⟩

/-- The function after its declaration. -/
def FunctionDef.declared (types : TypeNames) (f : FunctionDef) : FunctionDef :=
  { f with binding := Slot.fill f.binding (f.signed types) }

theorem FunctionDef.signed_of_signature {f : FunctionDef} {binding : FunctionBinding}
    (h : f.signature types = .ok binding) : f.signed types = binding := by
  rw [signed, h]

/-- A signature has the key of its function. -/
theorem FunctionDef.names_signed : FunctionDef.Names (FunctionDef.signed types) := by
  intro f
  cases h : f.signature types with
  | ok binding =>
    rw [signed_of_signature h]
    obtain ⟨hname, harity, -⟩ := signature_eq_ok h
    exact ⟨hname, harity⟩
  | error e =>
    rw [signed, h]
    exact ⟨rfl, List.length_map _⟩

/-- The functions can be declared one after the other where others are known: each has a signature,
and a key that nothing else has. -/
structure FunctionDef.Declarable (types : TypeNames) (cs : List Callee) (fs : List FunctionDef) :
    Prop where
  /-- All signatures can be resolved. -/
  signature : ∀ f ∈ fs, ∃ binding, f.signature types = .ok binding
  /-- No two functions have the same key. -/
  distinct : (fs.map FunctionDef.key).Nodup
  /-- No function has the key of one that is known already. -/
  new : ∀ f ∈ fs, Callee.among? cs f.name f.parameters.length = none

namespace FunctionDef

/-- The order does not matter. -/
theorem Declarable.perm {cs : List Callee} {fs fs' : List FunctionDef}
    (h : Declarable types cs fs) (hperm : fs'.Perm fs) : Declarable types cs fs' where
  signature := fun f hf => h.signature f (hperm.mem_iff.1 hf)
  distinct := (hperm.map key).nodup_iff.2 h.distinct
  new := fun f hf => h.new f (hperm.mem_iff.1 hf)

/-- A function and those after it, of which it is known. -/
theorem declarable_cons {cs : List Callee} {f : FunctionDef} {rest : List FunctionDef}
    (target : Target) :
    Declarable types cs (f :: rest) ↔
      (∃ binding, f.signature types = .ok binding) ∧
        Callee.among? cs f.name f.parameters.length = none ∧
        Declarable types (⟨f.signed types, target⟩ :: cs) rest := by
  have hlookup : ∀ g : FunctionDef,
      Callee.among? (⟨f.signed types, target⟩ :: cs) g.name g.parameters.length =
        if f.key = g.key then some ⟨f.signed types, target⟩
        else Callee.among? cs g.name g.parameters.length :=
    fun g => Callee.among?_declared names_signed f target
  constructor
  · intro h
    have hdistinct := h.distinct
    rw [List.map_cons, List.nodup_cons] at hdistinct
    obtain ⟨hsignature, hsignatures⟩ := List.forall_mem_cons.1 h.signature
    obtain ⟨hnew, hnews⟩ := List.forall_mem_cons.1 h.new
    refine ⟨hsignature, hnew, hsignatures, hdistinct.2, fun g hg => ?_⟩
    have hkey : f.key ≠ g.key := fun hkey => hdistinct.1 (hkey ▸ List.mem_map_of_mem hg)
    rw [hlookup, if_neg hkey]
    exact hnews g hg
  · rintro ⟨hsignature, hnew, hrest⟩
    -- a later function with the key of the first one would find the first one
    have hkey : ∀ g ∈ rest, f.key ≠ g.key := by
      intro g hg hkey
      have hfound := hrest.new g hg
      rw [hlookup, if_pos hkey] at hfound
      cases hfound
    refine ⟨List.forall_mem_cons.2 ⟨hsignature, hrest.signature⟩, ?_,
      List.forall_mem_cons.2 ⟨hnew, fun g hg => ?_⟩⟩
    · rw [List.map_cons, List.nodup_cons]
      refine ⟨fun hmem => ?_, hrest.distinct⟩
      obtain ⟨g, hg, hsame⟩ := List.mem_map.1 hmem
      exact hkey g hg hsame.symm
    · have hfound := hrest.new g hg
      rwa [hlookup, if_neg (hkey g hg)] at hfound

/-- When one function can be declared in a root, and what its declaration comes to. -/
theorem declare_eq_pass {s : Scope} (hinner : s.inner = []) {index : Nat} {f f' : FunctionDef}
    {r : Scope × FunctionBinding} :
    f.declare types index s = .pass f' r ↔
      (∃ binding, f.signature types = .ok binding) ∧
        Callee.among? s.root.callees f.name f.parameters.length = none ∧ f' = f.declared types ∧
        r = (s.withCallees (⟨f.signed types, .declared index⟩ :: s.root.callees),
          f.signed types) := by
  obtain ⟨inner, root⟩ := s
  subst hinner
  rw [declare]
  cases hsignature : f.signature types with
  | error e =>
    refine ⟨fun h => absurd h Checked.fail_ne_pass, ?_⟩
    rintro ⟨⟨binding, h⟩, -⟩
    cases h
  | ok binding =>
    have hsigned := signed_of_signature hsignature
    obtain ⟨hname, harity, -⟩ := signature_eq_ok hsignature
    have hadd : ∀ {t},
        (Scope.mk [] root).addFunction ⟨binding, .declared index⟩ f.span = .ok t ↔ _ :=
      Scope.addFunction_eq_ok
    rw [declared, hsigned]
    simp only [bind, Except.bind]
    cases hresult : (Scope.mk [] root).addFunction ⟨binding, .declared index⟩ f.span with
    | error e =>
      refine ⟨fun h => absurd h Checked.fail_ne_pass, ?_⟩
      rintro ⟨-, hnew, -⟩
      rw [← hname, ← harity] at hnew
      rw [hadd.2 ⟨hnew, rfl⟩] at hresult
      cases hresult
    | ok after =>
      obtain ⟨hnew, hafter⟩ := hadd.1 hresult
      have hnew' : Callee.among? root.callees f.name f.parameters.length = none := by
        rw [← hname, ← harity]
        exact hnew
      constructor
      · intro h
        cases h
        exact ⟨⟨binding, rfl⟩, hnew', rfl, congrArg (·, binding) hafter⟩
      · rintro ⟨-, -, rfl, rfl⟩
        rw [hafter]
        rfl

/-- **When functions can be declared**, and what their declarations come to. -/
theorem declareAll_eq_pass : ∀ {fs fs' : List FunctionDef} {s : Scope} {index : Nat}
    {r : Scope × List FunctionBinding}, s.inner = [] →
      (declareAll types index fs s = .pass fs' r ↔
        Declarable types s.root.callees fs ∧ fs' = fs.map (declared types) ∧
          r = (s.withCallees (Callee.declaring (signed types) s.root.callees index fs),
            fs.map (signed types))) := by
  intro fs
  induction fs with
  | nil =>
    intro fs' s index r _
    rw [declareAll]
    constructor
    · intro h
      cases h
      exact ⟨⟨List.forall_mem_nil _, List.nodup_nil, List.forall_mem_nil _⟩, rfl, rfl⟩
    · rintro ⟨-, rfl, rfl⟩
      rfl
  | cons f rest ih =>
    intro fs' s index r hinner
    let next := s.withCallees (⟨f.signed types, .declared index⟩ :: s.root.callees)
    rw [declareAll, declarable_cons (.declared index)]
    constructor
    · intro h
      obtain ⟨g, ⟨t, binding⟩, hf, h⟩ := Checked.andThen_eq_pass h
      obtain ⟨rest', ⟨after, bindings⟩, hrest, h⟩ := Checked.andThen_eq_pass h
      obtain ⟨hsignature, hnew, rfl, hdeclared⟩ := (declare_eq_pass hinner).1 hf
      cases hdeclared
      obtain ⟨hdeclarable, rfl, hafter⟩ := (ih (s := next) hinner).1 hrest
      cases hafter
      cases h
      exact ⟨⟨hsignature, hnew, hdeclarable⟩, rfl, rfl⟩
    · rintro ⟨⟨hsignature, hnew, hrest⟩, rfl, rfl⟩
      rw [(declare_eq_pass hinner).2 ⟨hsignature, hnew, rfl, rfl⟩, Checked.andThen_pass]
      dsimp only
      rw [(ih (s := next) hinner).2 ⟨hrest, rfl, rfl⟩, Checked.andThen_pass]
      rfl

end FunctionDef

/-- Functions in another order are bound in the same way. -/
theorem Callee.sameBindings_of_perm {bind : FunctionDef → FunctionBinding}
    (hbind : FunctionDef.Names bind) {cs : List Callee} {fs fs' : List FunctionDef} {index : Nat}
    (hdistinct : (fs.map FunctionDef.key).Nodup) (hperm : fs'.Perm fs) :
    SameBindings (declaring bind cs index fs) (declaring bind cs index fs') := by
  have hdistinct' := (hperm.map FunctionDef.key).nodup_iff.2 hdistinct
  intro name arity
  by_cases hmem : (name, arity) ∈ fs.map FunctionDef.key
  · obtain ⟨f, hf, hkey⟩ := List.mem_map.1 hmem
    cases hkey
    obtain ⟨i, hi⟩ := List.getElem?_of_mem hf
    obtain ⟨j, hj⟩ := List.getElem?_of_mem (hperm.mem_iff.2 hf)
    rw [among?_declaring_of_getElem? hbind hdistinct hi,
      among?_declaring_of_getElem? hbind hdistinct' hj]
    rfl
  · have hmem' : (name, arity) ∉ fs'.map FunctionDef.key :=
      fun h => hmem ((hperm.map FunctionDef.key).mem_iff.1 h)
    rw [among?_declaring_of_notMem hbind hmem, among?_declaring_of_notMem hbind hmem']

/-! ## Bodies -/

/-- The check of the body of a function where the whole program is known. -/
def FunctionDef.checked (types : TypeNames) (known : Scope) (f : FunctionDef) :
    Checked FunctionDef Unit :=
  ((Analyzer.new types).checkFunction known (f.declared types) (f.signed types)).1

/-- The bodies of functions pass if each does. -/
theorem Analyzer.checkFunctions_eq_pass {known : Scope} : ∀ {fs fs' : List FunctionDef}
    {a : Analyzer}, types = a.types →
      ((a.checkFunctions known (fs.map (FunctionDef.declared types))
          (fs.map (FunctionDef.signed types))).1 = .pass fs' () ↔
        (∀ f ∈ fs, (f.checked types known).verdict = .ok ()) ∧
          fs' = fs.map fun f => (f.checked types known).node) := by
  intro fs
  induction fs with
  | nil =>
    intro fs' a _
    constructor
    · intro h
      cases h
      exact ⟨List.forall_mem_nil _, rfl⟩
    · rintro ⟨-, rfl⟩
      rfl
  | cons f rest ih =>
    intro fs' a htypes
    have hf : (a.checkFunction known (f.declared types) (f.signed types)).1 =
        f.checked types known := by
      rw [FunctionDef.checked, fst_checkFunction, fst_checkFunction, ← htypes]
      rfl
    have hnext : types = (a.checkFunction known (f.declared types) (f.signed types)).2.types :=
      htypes.trans types_checkFunction.symm
    rw [List.map_cons, List.map_cons, checkFunctions_cons, hf, List.forall_mem_cons]
    constructor
    · intro h
      obtain ⟨f', _, hpass, h⟩ := Checked.andThen_eq_pass h
      obtain ⟨rest', hrest, rfl⟩ := Checked.inside_eq_pass h
      obtain ⟨hpasses, rfl⟩ := (ih hnext).1 hrest
      rw [hpass]
      exact ⟨⟨rfl, hpasses⟩, by rw [List.map_cons, hpass]; rfl⟩
    · rintro ⟨⟨hpass, hpasses⟩, rfl⟩
      have hchecked : f.checked types known = .pass (f.checked types known).node () := by
        rw [Checked.pass, ← hpass]
      rw [List.map_cons, hchecked, Checked.andThen_pass, (ih hnext).2 ⟨hpasses, rfl⟩]
      rfl

/-! ## Programs -/

/-- Globals are declared in the root. -/
theorem Global.inner_of_each : ∀ {gs gs' : List Global} {s t : Scope},
    Checked.each (Global.check types) gs s = .pass gs' t → s.inner = [] → t.inner = [] := by
  intro gs
  induction gs with
  | nil =>
    intro gs' s t h hinner
    cases h
    exact hinner
  | cons g rest ih =>
    intro gs' s t h hinner
    rw [Checked.each] at h
    obtain ⟨g', next, hg, h⟩ := Checked.andThen_eq_pass h
    obtain ⟨rest', hrest, rfl⟩ := Checked.inside_eq_pass h
    refine ih hrest ?_
    rw [Global.check] at hg
    split at hg
    · exact absurd hg Checked.fail_ne_pass
    · obtain ⟨value, ty, -, hg⟩ := Checked.andThen_eq_pass hg
      dsimp only at hg
      split at hg
      · rename_i after hadd
        cases hg
        obtain ⟨-, rfl⟩ := Scope.addVariable_eq_ok.1 hadd
        exact Scope.inner_withVariable_eq_nil.2 hinner
      · exact absurd hg Checked.fail_ne_pass

/-- What is known to the bodies of functions. -/
def Scope.knowing (types : TypeNames) (early : Scope) (fs : List FunctionDef) : Scope :=
  early.withCallees (Callee.declaring (FunctionDef.signed types) early.root.callees 0 fs)

namespace Program

variable {p q : Program}

/-- **What an accepted program is made of**: a `main`, globals that pass, functions that can be
declared, and bodies that pass where all of them are known. -/
theorem analyze_eq_pass {p' : Program} :
    p.analyze types = .pass p' () ↔
      p.entryPoint types = .ok () ∧ ∃ globals early,
        Checked.each (Global.check types) p.globals .initial = .pass globals early ∧
          FunctionDef.Declarable types early.root.callees p.functions ∧
          (∀ f ∈ p.functions,
            (f.checked types (early.knowing types p.functions)).verdict = .ok ()) ∧
          p' = ⟨globals, p.functions.map fun f =>
            (f.checked types (early.knowing types p.functions)).node⟩ := by
  rw [Program.analyze, Analyzer.analyze_eq, show (Analyzer.new types).types = types from rfl,
    Program.declare]
  constructor
  · intro h
    obtain ⟨declared, ⟨known, bindings⟩, hdeclare, h⟩ := Checked.andThen_eq_pass h
    obtain ⟨functions, hbodies, rfl⟩ := Checked.inside_eq_pass h
    split at hdeclare
    · exact absurd hdeclare Checked.fail_ne_pass
    · rename_i hentry
      obtain ⟨globals, early, hglobals, hdeclare⟩ := Checked.andThen_eq_pass hdeclare
      obtain ⟨fs, hfunctions, rfl⟩ := Checked.inside_eq_pass hdeclare
      have hinner := Global.inner_of_each hglobals rfl
      obtain ⟨hdeclarable, rfl, hknown⟩ := (FunctionDef.declareAll_eq_pass hinner).1 hfunctions
      cases hknown
      obtain ⟨hpasses, rfl⟩ := (Analyzer.checkFunctions_eq_pass rfl).1 hbodies
      exact ⟨hentry, globals, early, hglobals, hdeclarable, hpasses, rfl⟩
  · rintro ⟨hentry, globals, early, hglobals, hdeclarable, hpasses, rfl⟩
    have hinner := Global.inner_of_each hglobals rfl
    rw [hentry]
    dsimp only
    rw [hglobals, Checked.andThen_pass,
      (FunctionDef.declareAll_eq_pass hinner).2 ⟨hdeclarable, rfl, rfl⟩, Checked.inside_pass,
      Checked.andThen_pass]
    dsimp only
    have hbodies := (Analyzer.checkFunctions_eq_pass (a := Analyzer.new types)
      (show types = (Analyzer.new types).types from rfl)).2 ⟨hpasses, rfl⟩
    rw [← Scope.knowing, hbodies]
    rfl

/-- The `main` of a program whose functions have different keys is the same in every order. -/
theorem entryPoint_perm (hdistinct : (p.functions.map FunctionDef.key).Nodup)
    (hperm : q.functions.Perm p.functions) : q.entryPoint types = p.entryPoint types := by
  have hkey : ∀ {f : FunctionDef}, f.isMain = true → f.key = ("main", 0) := by
    intro f hf
    simpa [FunctionDef.isMain, FunctionDef.key] using hf
  have hfind : q.functions.find? FunctionDef.isMain = p.functions.find? FunctionDef.isMain := by
    cases hp : p.functions.find? FunctionDef.isMain with
    | none =>
      rw [List.find?_eq_none] at hp ⊢
      exact fun f hf => hp f (hperm.mem_iff.1 hf)
    | some f =>
      cases hq : q.functions.find? FunctionDef.isMain with
      | none =>
        rw [List.find?_eq_none] at hq
        exact absurd (List.find?_some hp) (hq f (hperm.mem_iff.2 (List.mem_of_find?_eq_some hp)))
      | some g =>
        have hsame : g.key = f.key :=
          (hkey (List.find?_some hq)).trans (hkey (List.find?_some hp)).symm
        exact congrArg some (List.inj_on_of_nodup_map hdistinct
          (hperm.mem_iff.1 (List.mem_of_find?_eq_some hq)) (List.mem_of_find?_eq_some hp) hsame)
  rw [entryPoint, entryPoint, hfind]

/-- **An accepted program is accepted in every order of its functions**, and each function gets the
same annotations. -/
theorem analyze_perm {p' : Program} (hglobals : q.globals = p.globals)
    (hperm : q.functions.Perm p.functions) (h : p.analyze types = .pass p' ()) :
    ∃ annotate : FunctionDef → FunctionDef, p'.functions = p.functions.map annotate ∧
      q.analyze types = .pass ⟨p'.globals, q.functions.map annotate⟩ () := by
  obtain ⟨hentry, globals, early, heach, hdeclarable, hpasses, rfl⟩ := analyze_eq_pass.1 h
  have hsame : Callee.SameBindings
      (Callee.declaring (FunctionDef.signed types) early.root.callees 0 p.functions)
      (Callee.declaring (FunctionDef.signed types) early.root.callees 0 q.functions) :=
    Callee.sameBindings_of_perm FunctionDef.names_signed hdeclarable.distinct hperm
  have hswaps : (early.knowing types p.functions).Swaps _ _ (early.knowing types q.functions) :=
    ⟨⟨rfl, Global.inner_of_each heach rfl ▸ List.forall_mem_nil _⟩, rfl⟩
  have hchecked : ∀ f : FunctionDef, f.checked types (early.knowing types q.functions) =
      f.checked types (early.knowing types p.functions) :=
    fun f => Analyzer.checkFunction_swaps hsame hswaps _ _ _
  refine ⟨fun f => (f.checked types (early.knowing types p.functions)).node, rfl,
    analyze_eq_pass.2 ⟨(entryPoint_perm hdeclarable.distinct hperm).trans hentry, globals, early,
      hglobals ▸ heach, hdeclarable.perm hperm, fun f hf => ?_, ?_⟩⟩
  · rw [hchecked]
    exact hpasses f (hperm.mem_iff.1 hf)
  · simp only [hchecked]

end Program

end ImpTree
