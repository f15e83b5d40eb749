import ImpTree.Proofs.Scope.Names
import Mathlib.Data.List.Forall2
import Mathlib.Data.List.Nodup

/-!
# How scopes change

Between two moments of a block the variables in scope keep their names and mutability, immutable
ones keep their values, and only the innermost frame gains variables.

* `Variable.Kept`, `Frame.Kept`, `Scope.Kept` — the same names, with other values where they are
  mutable.
* `Frame.Grown`, `Scope.Grown` — the same, with more variables in the innermost frame.
* `Scope.Lexical` — no frame has two variables of one name, and only the root has functions.
* `Scope.Replaced` — the same, but for the value of one variable.
* `Scope.Replaced.assign` — **an assignment changes one variable and nothing else**; so it keeps
  what is immutable (`Scope.Replaced.kept`).
* `Scope.Grown.root_var?` — an immutable variable of the root is found afterwards, with its value.
-/

namespace ImpTree

/-- What is related in two steps is related element by element. -/
theorem forall₂_trans {α : Type} {R : α → α → Prop} {xs ys zs : List α}
    (h : List.Forall₂ R xs ys) (h' : List.Forall₂ R ys zs)
    (htrans : ∀ a b c, R a b → R b c → R a c) : List.Forall₂ R xs zs := by
  induction h generalizing zs with
  | nil =>
    cases h'
    exact .nil
  | cons hxy _ ih =>
    cases h' with
    | cons hyz hrest => exact .cons (htrans _ _ _ hxy hyz) (ih hrest)

/-! ## Variables -/

/-- The same variable later on: it has the same name, and its value if it is immutable. -/
structure Variable.Kept (v v' : Variable) : Prop where
  /-- The binding never changes. -/
  binding : v'.binding = v.binding
  /-- The value of an immutable variable does not change. -/
  value : v.binding.isMutable = false → v'.value = v.value

namespace Variable.Kept

theorem refl (v : Variable) : v.Kept v := ⟨rfl, fun _ => rfl⟩

theorem trans {u v w : Variable} (h : u.Kept v) (h' : v.Kept w) : u.Kept w :=
  ⟨h'.binding.trans h.binding, fun himmutable =>
    (h'.value (h.binding.symm ▸ himmutable)).trans (h.value himmutable)⟩

/-- An immutable variable is the same later on. -/
theorem eq_of_immutable {v v' : Variable} (h : v.Kept v')
    (himmutable : v.binding.isMutable = false) : v' = v := by
  obtain ⟨binding, value⟩ := v
  obtain ⟨binding', value'⟩ := v'
  obtain rfl : binding' = binding := h.binding
  obtain rfl : value' = value := h.value himmutable
  rfl

/-- Variables that are kept have the same bindings in the same order. -/
theorem map_binding {vs vs' : List Variable} (h : List.Forall₂ Kept vs vs') :
    vs'.map Variable.binding = vs.map Variable.binding := by
  induction h with
  | nil => rfl
  | cons hv _ ih => rw [List.map_cons, List.map_cons, hv.binding, ih]

/-- A variable that is found is found later on. -/
theorem find? {vs vs' : List Variable} {name : String} {v : Variable}
    (h : List.Forall₂ Kept vs vs') (hv : vs.find? (fun v => v.binding.name == name) = some v) :
    ∃ v', vs'.find? (fun v => v.binding.name == name) = some v' ∧ v.Kept v' := by
  induction h with
  | nil => cases hv
  | @cons x x' vs vs' hx _ ih =>
    rw [List.find?_cons] at hv
    rw [List.find?_cons, hx.binding]
    cases hname : x.binding.name == name with
    | true =>
      rw [hname] at hv
      cases hv
      exact ⟨x', rfl, hx⟩
    | false =>
      rw [hname] at hv
      exact ih hv

end Variable.Kept

/-! ## Frames -/

/-- No two variables of the frame have the same name. -/
def Frame.Distinct (f : Frame) : Prop := (f.vars.map fun v => v.binding.name).Nodup

/-- The same names and functions, and the same values of immutable variables. -/
structure Frame.Kept (f f' : Frame) : Prop where
  /-- The variables keep their places. -/
  vars : List.Forall₂ Variable.Kept f.vars f'.vars
  /-- The functions are the same. -/
  callees : f'.callees = f.callees

/-- The same as before, after more variables have been declared: `gained` tells their bindings in
the order of their declarations. -/
structure Frame.Grown (gained : List VariableBinding) (f f' : Frame) : Prop where
  /-- The new variables stand before those that were there. -/
  vars : ∃ new old, f'.vars = new ++ old ∧ new.map Variable.binding = gained.reverse ∧
    List.Forall₂ Variable.Kept f.vars old
  /-- The functions are the same. -/
  callees : f'.callees = f.callees

namespace Frame

variable {f f₁ f₂ : Frame} {gained gained' : List VariableBinding} {name : String}

theorem Kept.refl (f : Frame) : f.Kept f := ⟨List.forall₂_same.2 fun v _ => .refl v, rfl⟩

theorem Kept.trans (h : f.Kept f₁) (h' : f₁.Kept f₂) : f.Kept f₂ :=
  ⟨forall₂_trans h.vars h'.vars fun _ _ _ => .trans, h'.callees.trans h.callees⟩

/-- Different names stay different. -/
theorem Kept.distinct (h : f.Kept f₁) (hf : f.Distinct) : f₁.Distinct := by
  have hnames := congrArg (List.map VariableBinding.name) (Variable.Kept.map_binding h.vars)
  rw [List.map_map, List.map_map] at hnames
  rw [Distinct, show (fun v : Variable => v.binding.name) = VariableBinding.name ∘ Variable.binding
    from rfl, hnames]
  exact hf

/-- A frame that is kept has gained nothing. -/
theorem Kept.grown (h : f.Kept f₁) : f.Grown [] f₁ := ⟨⟨[], f₁.vars, rfl, rfl, h.vars⟩, h.callees⟩

/-- What is gained first comes first. -/
theorem Grown.trans (h : f.Grown gained f₁) (h' : f₁.Grown gained' f₂) :
    f.Grown (gained ++ gained') f₂ := by
  obtain ⟨new, old, hvars, hnew, hold⟩ := h.vars
  obtain ⟨new', old', hvars', hnew', hold'⟩ := h'.vars
  rw [hvars] at hold'
  -- what was gained first is among what the second step keeps
  have hfirst := List.forall₂_take_append _ _ _ hold'.flip
  have hrest := List.forall₂_drop_append _ _ _ hold'.flip
  refine ⟨⟨new' ++ old'.take new.length, old'.drop new.length, ?_, ?_, ?_⟩,
    h'.callees.trans h.callees⟩
  · rw [hvars', List.append_assoc, List.take_append_drop]
  · rw [List.map_append, hnew', Variable.Kept.map_binding hfirst.flip, hnew, List.reverse_append]
  · exact forall₂_trans hold hrest.flip fun _ _ _ => .trans

/-- A variable that is declared is gained. -/
theorem grown_cons (f : Frame) (v : Variable) :
    f.Grown [v.binding] { f with vars := v :: f.vars } :=
  ⟨⟨[v], f.vars, rfl, rfl, List.forall₂_same.2 fun v _ => .refl v⟩, rfl⟩

/-- A new name keeps names different. -/
theorem Distinct.cons {v : Variable} (h : f.Distinct) (hnew : f.var? v.binding.name = none) :
    Distinct { f with vars := v :: f.vars } := by
  rw [Distinct, List.map_cons, List.nodup_cons]
  refine ⟨fun hmem => ?_, h⟩
  obtain ⟨x, hx, hname⟩ := List.mem_map.1 hmem
  exact List.find?_eq_none.1 hnew x hx (beq_iff_eq.2 hname)

/-- One mutable variable of the frame has another value, the only one of its name. -/
inductive Replaced (name : String) (old new : Value) : Frame → Frame → Prop where
  /-- All variables before and after it are as they were. -/
  | mk {before after : List Variable} {callees : List Callee} {binding : VariableBinding}
      (hname : binding.name = name) (hmutable : binding.isMutable = true)
      (honly : ∀ v ∈ before ++ after, v.binding.name ≠ name) :
      Replaced name old new ⟨before ++ ⟨binding, old⟩ :: after, callees⟩
        ⟨before ++ ⟨binding, new⟩ :: after, callees⟩

/-- If names are different, an assignment changes the variable that is found and no other. -/
theorem Replaced.assign {found : Variable} (hf : f.Distinct) (hfound : f.var? name = some found)
    (hmutable : found.binding.isMutable = true) (value : Value) :
    f.Replaced name found.value value (f.assign name value) := by
  obtain ⟨vars, callees⟩ := f
  obtain ⟨hname, before, after, hsplit, -⟩ := List.find?_eq_some_iff_append.1 hfound
  obtain rfl : vars = before ++ found :: after := hsplit
  have hfoundName : found.binding.name = name := beq_iff_eq.1 hname
  have hdistinct : ((found :: (before ++ after)).map fun v => v.binding.name).Nodup :=
    (List.perm_middle.map _).nodup_iff.1 hf
  have honly : ∀ v ∈ before ++ after, v.binding.name ≠ name := by
    rintro v hv rfl
    refine (List.nodup_cons.1 hdistinct).1 (List.mem_map.2 ⟨v, hv, hfoundName.symm⟩)
  have hsame : ∀ vs : List Variable, (∀ v ∈ vs, v.binding.name ≠ name) →
      vs.map (fun v => if v.binding.name == name then { v with value } else v) = vs := by
    intro vs hvs
    refine (List.map_congr_left fun v hv => ?_).trans (List.map_id vs)
    exact if_neg (by simpa using hvs v hv)
  rw [Frame.assign, List.map_append, List.map_cons, if_pos hname,
    hsame before fun v hv => honly v (List.mem_append_left _ hv),
    hsame after fun v hv => honly v (List.mem_append_right _ hv)]
  exact .mk hfoundName hmutable honly

/-- A mutable variable that has another value is kept, and so are all others. -/
theorem Replaced.kept {old new : Value} (h : f.Replaced name old new f₁) : f.Kept f₁ := by
  obtain ⟨-, hmutable, -⟩ := h
  refine ⟨List.rel_append (List.forall₂_same.2 fun v _ => .refl v) (.cons ⟨rfl, fun h => ?_⟩
    (List.forall₂_same.2 fun v _ => .refl v)), rfl⟩
  rw [hmutable] at h
  cases h

/-- A variable that is found is found after the frame has grown, if names are different then. -/
theorem Grown.var? {v : Variable} (h : f.Grown gained f₁) (hf₁ : f₁.Distinct)
    (hv : f.var? name = some v) : ∃ v', f₁.var? name = some v' ∧ v.Kept v' := by
  obtain ⟨new, old, hvars, -, hold⟩ := h.vars
  obtain ⟨v', hv', hkept⟩ := Variable.Kept.find? hold hv
  refine ⟨v', ?_, hkept⟩
  -- no new variable has the name, since an old one has it
  have hnew : new.find? (fun v => v.binding.name == name) = none := by
    rw [List.find?_eq_none]
    intro x hx hname
    rw [Distinct, hvars, List.map_append] at hf₁
    have hold' : v'.binding.name = name := by simpa using List.find?_some hv'
    have hname' : v'.binding.name = x.binding.name := hold'.trans (beq_iff_eq.1 hname).symm
    exact List.disjoint_of_nodup_append hf₁ (List.mem_map_of_mem hx)
      (hname' ▸ List.mem_map_of_mem (List.mem_of_find?_eq_some hv'))
  rw [Frame.var?, hvars, List.find?_append, hnew, hv', Option.none_or]

end Frame

/-! ## Scopes -/

/-- No frame of the scope has two variables of one name, and only the root has functions. -/
structure Scope.Lexical (s : Scope) : Prop where
  /-- Names of inner variables are different within each frame. -/
  inner : ∀ f ∈ s.inner, f.Distinct
  /-- Names of the root's variables are different. -/
  root : s.root.Distinct
  /-- Inner frames have no functions. -/
  callees : ∀ f ∈ s.inner, f.callees = []

/-- The same frames with the same names, and the same values of immutable variables. -/
structure Scope.Kept (s s' : Scope) : Prop where
  /-- The inner frames are kept. -/
  inner : List.Forall₂ Frame.Kept s.inner s'.inner
  /-- The root is kept. -/
  root : s.root.Kept s'.root

/-- The same frames, of which the innermost one has gained variables. -/
inductive Scope.Grown (gained : List VariableBinding) : Scope → Scope → Prop where
  /-- The innermost frame is the root. -/
  | root {f f' : Frame} (h : f.Grown gained f') : Grown gained ⟨[], f⟩ ⟨[], f'⟩
  /-- The innermost frame stands inside others, which are kept. -/
  | inner {f f' root root' : Frame} {rest rest' : List Frame} (h : f.Grown gained f')
      (hrest : List.Forall₂ Frame.Kept rest rest') (hroot : root.Kept root') :
      Grown gained ⟨f :: rest, root⟩ ⟨f' :: rest', root'⟩

namespace Scope

variable {s t u : Scope} {gained gained' : List VariableBinding} {name : String}

/-! ### Frames that are kept -/

theorem Kept.refl (s : Scope) : s.Kept s := ⟨List.forall₂_same.2 fun f _ => .refl f, .refl s.root⟩

theorem Kept.trans (h : s.Kept t) (h' : t.Kept u) : s.Kept u :=
  ⟨forall₂_trans h.inner h'.inner fun _ _ _ => .trans, h.root.trans h'.root⟩

/-- Scopes that are kept stay lexical. -/
theorem Kept.lexical (h : s.Kept t) (hs : s.Lexical) : t.Lexical := by
  have hframes : ∀ f' ∈ t.inner, ∃ f ∈ s.inner, f.Kept f' := by
    obtain ⟨inner, root⟩ := s
    obtain ⟨inner', root'⟩ := t
    have hkept := h.inner
    clear hs h
    dsimp only at hkept ⊢
    induction hkept with
    | nil => exact List.forall_mem_nil _
    | cons hf _ ih =>
      refine List.forall_mem_cons.2 ⟨⟨_, List.mem_cons_self, hf⟩, fun f' hf' => ?_⟩
      obtain ⟨f, hmem, hkept⟩ := ih f' hf'
      exact ⟨f, List.mem_cons_of_mem _ hmem, hkept⟩
  refine ⟨fun f' hf' => ?_, h.root.distinct hs.root, fun f' hf' => ?_⟩
  · obtain ⟨f, hf, hkept⟩ := hframes f' hf'
    exact hkept.distinct (hs.inner f hf)
  · obtain ⟨f, hf, hkept⟩ := hframes f' hf'
    exact hkept.callees.trans (hs.callees f hf)

theorem Kept.grown (h : s.Kept t) : s.Grown [] t := by
  obtain ⟨_ | ⟨f, rest⟩, root⟩ := s
  · obtain ⟨inner, root'⟩ := t
    obtain ⟨hinner, hroot⟩ := h
    cases hinner
    exact .root hroot.grown
  · obtain ⟨inner, root'⟩ := t
    obtain ⟨hinner, hroot⟩ := h
    cases hinner with
    | cons hf hrest => exact .inner hf.grown hrest hroot

theorem Grown.trans (h : s.Grown gained t) (h' : t.Grown gained' u) :
    s.Grown (gained ++ gained') u := by
  cases h with
  | root hf =>
    cases h' with
    | root hf' => exact .root (hf.trans hf')
  | inner hf hrest hroot =>
    cases h' with
    | inner hf' hrest' hroot' =>
      exact .inner (hf.trans hf') (forall₂_trans hrest hrest' fun _ _ _ => .trans)
        (hroot.trans hroot')

/-- What a block gains ends with the block. -/
theorem Grown.leave (h : s.child.Grown gained t) : s.Kept t.leave := by
  cases h with
  | inner _ hrest hroot => exact ⟨hrest, hroot⟩

/-- A call keeps the root, and the frames around it come back. -/
theorem Grown.restore (h : s.global.child.Grown gained t) : s.Kept ⟨s.inner, t.root⟩ := by
  cases h with
  | inner _ _ hroot => exact ⟨List.forall₂_same.2 fun f _ => .refl f, hroot⟩

/-- A variable that is declared is gained. -/
theorem grown_withVariable (s : Scope) (v : Variable) : s.Grown [v.binding] (s.withVariable v) := by
  obtain ⟨_ | ⟨f, rest⟩, root⟩ := s
  · exact .root (root.grown_cons v)
  · exact .inner (f.grown_cons v) (List.forall₂_same.2 fun f _ => .refl f) (.refl root)

/-! ### Lexical scopes -/

theorem Lexical.initial : Scope.initial.Lexical :=
  ⟨List.forall_mem_nil _, List.nodup_nil, List.forall_mem_nil _⟩

theorem Lexical.child (h : s.Lexical) : s.child.Lexical :=
  ⟨List.forall_mem_cons.2 ⟨List.nodup_nil, h.inner⟩, h.root,
    List.forall_mem_cons.2 ⟨rfl, h.callees⟩⟩

theorem Lexical.leave (h : s.Lexical) : s.leave.Lexical :=
  ⟨fun f hf => h.inner f (List.mem_of_mem_drop hf), h.root,
    fun f hf => h.callees f (List.mem_of_mem_drop hf)⟩

theorem Lexical.global (h : s.Lexical) : s.global.Lexical :=
  ⟨List.forall_mem_nil _, h.root, List.forall_mem_nil _⟩

theorem Lexical.restore (h : s.Lexical) (ht : t.Lexical) : Lexical ⟨s.inner, t.root⟩ :=
  ⟨h.inner, ht.root, h.callees⟩

/-- A variable that can be declared keeps names different. -/
theorem Lexical.withVariable {v : Variable} (h : s.Lexical)
    (hnew : s.innermost.var? v.binding.name = none) : (s.withVariable v).Lexical := by
  obtain ⟨_ | ⟨f, rest⟩, root⟩ := s
  · exact ⟨List.forall_mem_nil _, h.root.cons hnew, List.forall_mem_nil _⟩
  · obtain ⟨hf, hrest⟩ := List.forall_mem_cons.1 h.inner
    exact ⟨List.forall_mem_cons.2 ⟨hf.cons hnew, hrest⟩, h.root,
      List.forall_mem_cons.2 (List.forall_mem_cons.1 h.callees)⟩

/-! ### Assignments -/

/-- The innermost variable of a name, which is mutable, has another value: it stands in one of the
inner frames, inside of which no frame has the name, or in the root.  Everything else is as it
was. -/
inductive Replaced (name : String) (old new : Value) : Scope → Scope → Prop where
  /-- The variable stands in an inner frame. -/
  | inner (nearer : List Frame) {outer : List Frame} {f f' root : Frame}
      (hnearer : ∀ g ∈ nearer, g.var? name = none) (hframe : f.Replaced name old new f') :
      Replaced name old new ⟨nearer ++ f :: outer, root⟩ ⟨nearer ++ f' :: outer, root⟩
  /-- The variable stands in the root. -/
  | root {inner : List Frame} {f f' : Frame} (hinner : ∀ g ∈ inner, g.var? name = none)
      (hframe : f.Replaced name old new f') : Replaced name old new ⟨inner, f⟩ ⟨inner, f'⟩

/-- A frame inside that does not have the name makes no difference. -/
theorem Replaced.cons {old new : Value} {f root root' : Frame} {rest rest' : List Frame}
    (hf : f.var? name = none) (h : Replaced name old new ⟨rest, root⟩ ⟨rest', root'⟩) :
    Replaced name old new ⟨f :: rest, root⟩ ⟨f :: rest', root'⟩ := by
  cases h with
  | inner nearer hnearer hframe =>
    exact .inner (f :: nearer) (List.forall_mem_cons.2 ⟨hf, hnearer⟩) hframe
  | root hinner hframe => exact .root (List.forall_mem_cons.2 ⟨hf, hinner⟩) hframe

/-- **An assignment to a mutable variable changes the innermost variable of the name and nothing
else**, by induction on the inner frames. -/
theorem Replaced.assign {found : Variable} (hs : s.Lexical) (hfound : s.var? name = some found)
    (hmutable : found.binding.isMutable = true) (value : Value) :
    s.Replaced name found.value value (s.assign name value) := by
  obtain ⟨inner, root⟩ := s
  have hinner := hs.inner
  have hroot := hs.root
  clear hs
  dsimp only at hinner hroot
  induction inner with
  | nil =>
    have hvar : root.var? name = some found := by
      rwa [var?, frames, List.nil_append, List.findSome?_singleton] at hfound
    exact .root (List.forall_mem_nil _) (.assign hroot hvar hmutable value)
  | cons f rest ih =>
    rw [List.forall_mem_cons] at hinner
    rw [var?, frames, List.cons_append, List.findSome?_cons] at hfound
    rw [Scope.assign, assignIn]
    cases hv : f.var? name with
    | some v =>
      rw [hv] at hfound
      cases hfound
      exact .inner [] (List.forall_mem_nil _) (.assign hinner.1 hv hmutable value)
    | none =>
      rw [hv] at hfound
      exact .cons hv (ih hfound hinner.2)

/-- What is replaced is mutable, so that everything is kept. -/
theorem Replaced.kept {old new : Value} (h : s.Replaced name old new t) : s.Kept t := by
  cases h with
  | inner _ _ hframe =>
    exact ⟨List.rel_append (List.forall₂_same.2 fun f _ => .refl f)
      (.cons hframe.kept (List.forall₂_same.2 fun f _ => .refl f)), .refl _⟩
  | root _ hframe => exact ⟨List.forall₂_same.2 fun f _ => .refl f, hframe.kept⟩

/-! ### Variables of the root -/

/-- An immutable variable of the root is still there when the scope has grown. -/
theorem Grown.root_var? {v : Variable} (h : s.Grown gained t) (ht : t.Lexical)
    (hv : s.root.var? name = some v) (himmutable : v.binding.isMutable = false) :
    t.root.var? name = some v := by
  have hroot : ∃ gained, s.root.Grown gained t.root := by
    cases h with
    | root hf => exact ⟨_, hf⟩
    | inner _ _ hroot => exact ⟨_, hroot.grown⟩
  obtain ⟨gained, hgrown⟩ := hroot
  obtain ⟨v', hv', hkept⟩ := hgrown.var? ht.root hv
  rw [hv', hkept.eq_of_immutable himmutable]

end Scope

end ImpTree
