import ImpTree.Proofs.Scope.Names
import ImpTree.Proofs.Typing.Values

/-!
# Scopes that match

A scope of a run matches a scope of the checker if both have the same frames with the same names in
the same order, and every variable of the run holds a value that fits the type that the checker
knows for it.

* `Scope.Matches` — the relation, from variables and functions up to chains of frames.
* `Scope.Matches.var?`, `Scope.Matches.callee?` — both scopes find the same names.
* `Scope.Matches.addVariable`, `Scope.Matches.addFunction` — a declaration that the checker accepts
  succeeds in the run, too.
* `Scope.Matches.assign` — a new value of the right type keeps the scopes matching.
-/

namespace ImpTree

variable {missing : Prop}

/-! ## The relation -/

/-- The variable of a run has the name and mutability that are known, and a value that fits the type
that is known. -/
structure Variable.Matches (missing : Prop) (known actual : Variable) : Prop where
  /-- The names agree. -/
  name : actual.binding.name = known.binding.name
  /-- The mutability agrees. -/
  isMutable : actual.binding.isMutable = known.binding.isMutable
  /-- The value fits. -/
  value : actual.value.Fits missing known.binding.ty

/-- A variable that is immutable in the run, though it is mutable if the slots hold what the rules
find, shows that they do not. -/
theorem Variable.Matches.not_noted {noted : Prop} {known actual : Variable}
    (h : known.Matches missing actual) (himmutable : actual.binding.isMutable = false)
    (hmutable : noted → known.binding.isMutable = true) : ¬noted := by
  intro hn
  have hmut : actual.binding.isMutable = true := h.isMutable.trans (hmutable hn)
  rw [himmutable] at hmut
  cases hmut

/-- The function of a run has the name, number of arguments and meaning that are known. -/
structure Callee.Matches (known actual : Callee) : Prop where
  /-- The names agree. -/
  name : actual.binding.name = known.binding.name
  /-- The numbers of arguments agree. -/
  arity : actual.binding.arity = known.binding.arity
  /-- A call has the same meaning. -/
  target : actual.target = known.target

/-- The frames have the same names in the same order, and no variable twice. -/
structure Frame.Matches (missing : Prop) (known actual : Frame) : Prop where
  /-- The variables match one by one. -/
  vars : List.Forall₂ (Variable.Matches missing) known.vars actual.vars
  /-- The functions match one by one. -/
  callees : List.Forall₂ Callee.Matches known.callees actual.callees
  /-- No two variables have one name. -/
  distinct : (known.vars.map fun v => v.binding.name).Nodup

/-- The scopes have the same frames. -/
structure Scope.Matches (missing : Prop) (known actual : Scope) : Prop where
  /-- The inner frames match one by one. -/
  inner : List.Forall₂ (Frame.Matches missing) known.inner actual.inner
  /-- The roots match. -/
  root : Frame.Matches missing known.root actual.root

/-! ## Searching two lists at once -/

section Search

variable {α β γ δ : Type} {R : α → β → Prop} {S : γ → δ → Prop} {as : List α} {bs : List β}

/-- Two tests that agree on related elements find related elements. -/
theorem find?_rel {p : α → Bool} {q : β → Bool} (hpq : ∀ {a b}, R a b → p a = q b)
    (h : List.Forall₂ R as bs) : Option.Rel R (as.find? p) (bs.find? q) := by
  induction h with
  | nil => exact .none
  | @cons a b as bs hab _ ih =>
    rw [List.find?_cons, List.find?_cons, hpq hab]
    cases q b with
    | true => exact .some hab
    | false => exact ih

/-- Two searches that agree on related elements find related results. -/
theorem findSome?_rel {f : α → Option γ} {g : β → Option δ}
    (hfg : ∀ {a b}, R a b → Option.Rel S (f a) (g b)) (h : List.Forall₂ R as bs) :
    Option.Rel S (as.findSome? f) (bs.findSome? g) := by
  induction h with
  | nil => exact .none
  | @cons a b as bs hab _ ih =>
    rw [List.findSome?_cons, List.findSome?_cons]
    have hrel := hfg hab
    generalize f a = x at hrel ⊢
    generalize g b = y at hrel ⊢
    cases hrel with
    | some hcd => exact .some hcd
    | none => exact ih

theorem rel_some {a : α} {o : Option β} (h : Option.Rel R (some a) o) :
    ∃ b, o = some b ∧ R a b := by
  cases h with
  | some hab => exact ⟨_, rfl, hab⟩

theorem rel_none {o : Option β} (h : Option.Rel R none o) : o = none := by
  cases h
  rfl

end Search

/-! ## Frames -/

namespace Frame.Matches

variable {known actual : Frame} {name : String}

theorem empty : Frame.Matches missing .empty .empty := ⟨.nil, .nil, List.nodup_nil⟩

theorem var? (h : known.Matches missing actual) (name : String) :
    Option.Rel (Variable.Matches missing) (known.var? name) (actual.var? name) :=
  find?_rel (fun hv => by rw [hv.name]) h.vars

theorem callee? (h : known.Matches missing actual) (name : String) (arity : Nat) :
    Option.Rel Callee.Matches (known.callee? name arity) (actual.callee? name arity) :=
  find?_rel (fun hc => by rw [hc.name, hc.arity]) h.callees

/-- One more variable on either side, with a name that is not there yet. -/
theorem cons_var {k v : Variable} (h : known.Matches missing actual) (hv : k.Matches missing v)
    (hnew : known.var? k.binding.name = none) :
    Frame.Matches missing { known with vars := k :: known.vars }
      { actual with vars := v :: actual.vars } where
  vars := .cons hv h.vars
  callees := h.callees
  distinct := by
    rw [List.map_cons, List.nodup_cons]
    refine ⟨fun hmem => ?_, h.distinct⟩
    obtain ⟨x, hx, hname⟩ := List.mem_map.1 hmem
    have := List.find?_eq_none.1 hnew x hx
    simp [hname] at this

/-- One more function on either side. -/
theorem cons_callee {k c : Callee} (h : known.Matches missing actual) (hc : k.Matches c) :
    Frame.Matches missing { known with callees := k :: known.callees }
      { actual with callees := c :: actual.callees } :=
  ⟨h.vars, .cons hc h.callees, h.distinct⟩

/-- The variable that is found is the only one of its name. -/
theorem eq_of_var? {k x : Variable} (h : known.Matches missing actual)
    (hk : known.var? name = some k) (hx : x ∈ known.vars) (hname : x.binding.name = name) :
    x = k := by
  have hkname : k.binding.name = name := by simpa using List.find?_some hk
  exact List.inj_on_of_nodup_map h.distinct hx (List.mem_of_find?_eq_some hk)
    (hname.trans hkname.symm)

/-- Variables keep matching when those of one name get a value that fits what is known of them. -/
theorem assign_vars {ks vs : List Variable} {value : Value}
    (h : List.Forall₂ (Variable.Matches missing) ks vs)
    (hfits : ∀ k ∈ ks, k.binding.name = name → value.Fits missing k.binding.ty) :
    List.Forall₂ (Variable.Matches missing) ks
      (vs.map fun v => if v.binding.name == name then { v with value } else v) := by
  induction h with
  | nil => exact .nil
  | @cons k v ks vs hkv _ ih =>
    refine .cons ?_ (ih fun x hx => hfits x (List.mem_cons_of_mem _ hx))
    dsimp only
    by_cases hname : v.binding.name = name
    · rw [if_pos (beq_iff_eq.2 hname)]
      exact ⟨hkv.name, hkv.isMutable, hfits k List.mem_cons_self (hkv.name ▸ hname)⟩
    · rw [if_neg (by simpa using hname)]
      exact hkv

/-- A value that fits keeps the frames matching. -/
theorem assign {k : Variable} {value : Value} (h : known.Matches missing actual)
    (hk : known.var? name = some k) (hfits : value.Fits missing k.binding.ty) :
    known.Matches missing (actual.assign name value) where
  vars := assign_vars h.vars fun x hx hname => by rwa [h.eq_of_var? hk hx hname]
  callees := h.callees
  distinct := h.distinct

end Frame.Matches

/-! ## Chains of frames -/

namespace Scope.Matches

variable {known actual after : Scope} {name : String}

/-- The built-in functions are known and there. -/
theorem initial : Scope.Matches missing .initial .initial :=
  ⟨.nil, .nil, .cons ⟨rfl, rfl, rfl⟩ .nil, List.nodup_nil⟩

theorem child (h : known.Matches missing actual) : known.child.Matches missing actual.child :=
  ⟨.cons .empty h.inner, h.root⟩

theorem leave (h : known.Matches missing actual) : known.leave.Matches missing actual.leave :=
  ⟨List.forall₂_drop 1 h.inner, h.root⟩

theorem global (h : known.Matches missing actual) : known.global.Matches missing actual.global :=
  ⟨.nil, h.root⟩

theorem frames (h : known.Matches missing actual) :
    List.Forall₂ (Frame.Matches missing) known.frames actual.frames :=
  List.rel_append h.inner (.cons h.root .nil)

/-- Both scopes have a variable of the name, or neither has one. -/
theorem var? (h : known.Matches missing actual) (name : String) :
    Option.Rel (Variable.Matches missing) (known.var? name) (actual.var? name) :=
  findSome?_rel (fun hf => hf.var? name) h.frames

/-- Both scopes have a function of the name and number of arguments, or neither has one. -/
theorem callee? (h : known.Matches missing actual) (name : String) (arity : Nat) :
    Option.Rel Callee.Matches (known.callee? name arity) (actual.callee? name arity) :=
  findSome?_rel (fun hf => hf.callee? name arity) h.frames

/-- A variable that is known is there, and matches. -/
theorem var?_eq_some {k : Variable} (h : known.Matches missing actual)
    (hk : known.var? name = some k) : ∃ v, actual.var? name = some v ∧ k.Matches missing v := by
  have hrel := h.var? name
  rw [hk] at hrel
  exact rel_some hrel

/-- A function that is known is there, and matches. -/
theorem callee?_eq_some {arity : Nat} {k : Callee} (h : known.Matches missing actual)
    (hk : known.callee? name arity = some k) :
    ∃ c, actual.callee? name arity = some c ∧ k.Matches c := by
  have hrel := h.callee? name arity
  rw [hk] at hrel
  exact rel_some hrel

theorem innermost (h : known.Matches missing actual) :
    Frame.Matches missing known.innermost actual.innermost := by
  obtain ⟨ks, kroot⟩ := known
  obtain ⟨fs, root⟩ := actual
  obtain ⟨hinner, hroot⟩ := h
  cases hinner with
  | nil => exact hroot
  | cons hf _ => exact hf

theorem withInnermost {kf f : Frame} (h : known.Matches missing actual)
    (hf : kf.Matches missing f) :
    (known.withInnermost kf).Matches missing (actual.withInnermost f) := by
  obtain ⟨ks, kroot⟩ := known
  obtain ⟨fs, root⟩ := actual
  obtain ⟨hinner, hroot⟩ := h
  cases hinner with
  | nil => exact ⟨.nil, hf⟩
  | cons _ hrest => exact ⟨.cons hf hrest, hroot⟩

/-! ### Declarations -/

/-- A variable that the checker can declare can be declared in the run, with a value that fits. -/
theorem addVariable {binding actualBinding : VariableBinding} {dummy value : Value}
    {span place : Span} (h : known.Matches missing actual)
    (hadd : known.addVariable binding dummy span = .ok after)
    (hname : actualBinding.name = binding.name)
    (hmut : actualBinding.isMutable = binding.isMutable)
    (hfits : value.Fits missing binding.ty) :
    ∃ s, actual.addVariable actualBinding value place = .ok s ∧ after.Matches missing s := by
  obtain ⟨hnew, rfl⟩ := Scope.addVariable_eq_ok.1 hadd
  have hnone : actual.innermost.var? actualBinding.name = none := by
    have hrel := h.innermost.var? binding.name
    rw [hnew] at hrel
    rw [hname]
    exact rel_none hrel
  exact ⟨_, Scope.addVariable_eq_ok.2 ⟨hnone, rfl⟩,
    h.withInnermost (h.innermost.cons_var ⟨hname, hmut, hfits⟩ hnew)⟩

/-- A function that the checker can declare can be declared in the run. -/
theorem addFunction {k c : Callee} {span : Span} (h : known.Matches missing actual)
    (hadd : known.addFunction k span = .ok after) (hc : k.Matches c) (place : Span) :
    ∃ s, actual.addFunction c place = .ok s ∧ after.Matches missing s := by
  obtain ⟨hnew, rfl⟩ := Scope.addFunction_eq_ok.1 hadd
  have hnone : actual.innermost.callee? c.binding.name c.binding.arity = none := by
    have hrel := h.innermost.callee? k.binding.name k.binding.arity
    rw [hnew] at hrel
    rw [hc.name, hc.arity]
    exact rel_none hrel
  exact ⟨_, Scope.addFunction_eq_ok.2 ⟨hnone, rfl⟩,
    h.withInnermost (h.innermost.cons_callee hc)⟩

/-! ### Assignment -/

/-- The value goes into the frame in which the checker finds the name. -/
theorem assignIn {ks fs : List Frame} {kroot root : Frame} {k : Variable} {value : Value}
    (h : List.Forall₂ (Frame.Matches missing) ks fs) (hroot : kroot.Matches missing root)
    (hk : (ks ++ [kroot]).findSome? (fun f => f.var? name) = some k)
    (hfits : value.Fits missing k.binding.ty) :
    List.Forall₂ (Frame.Matches missing) ks (Scope.assignIn name value fs root).1 ∧
      kroot.Matches missing (Scope.assignIn name value fs root).2 := by
  induction h with
  | nil =>
    have hfound : kroot.var? name = some k := by
      rw [List.nil_append, List.findSome?_cons] at hk
      cases hv : kroot.var? name with
      | none => rw [hv] at hk; cases hk
      | some v => rw [hv] at hk; exact hk
    exact ⟨.nil, hroot.assign hfound hfits⟩
  | @cons kf f ks fs hf hfs ih =>
    rw [List.cons_append, List.findSome?_cons] at hk
    have hrel := hf.var? name
    rw [Scope.assignIn]
    cases hv : kf.var? name with
    | some v =>
      rw [hv] at hk hrel
      cases hk
      obtain ⟨x, hx, -⟩ := rel_some hrel
      rw [if_pos (by rw [hx]; rfl)]
      exact ⟨.cons (hf.assign hv hfits) hfs, hroot⟩
    | none =>
      rw [hv] at hk hrel
      rw [if_neg (by rw [rel_none hrel]; exact Bool.false_ne_true)]
      exact ⟨.cons hf (ih hk).1, (ih hk).2⟩

/-- A value that fits keeps the scopes matching. -/
theorem assign {k : Variable} {value : Value} (h : known.Matches missing actual)
    (hk : known.var? name = some k) (hfits : value.Fits missing k.binding.ty) :
    known.Matches missing (actual.assign name value) := by
  obtain ⟨hinner, hroot⟩ := assignIn h.inner h.root hk hfits
  exact ⟨hinner, hroot⟩

end Scope.Matches

end ImpTree
