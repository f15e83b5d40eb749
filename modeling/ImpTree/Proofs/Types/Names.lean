import ImpTree.TypeNames
import Mathlib

/-!
# What type names stand for

A name stands for the type that is registered for it, blanks at its ends left aside, or for a list
type if it spells one and nothing is registered for it.

* `trimBlank_surrounded`, `trimBlank_trimBlank` — blanks around a text without blanks at its ends.
* `TypeNames.StandsFor` — the rules by which a name stands for a type.
* `TypeNames.lookup_eq_some_iff` — looking a name up follows the rules.
* `TypeNames.StandsFor.register` — **a name that stood for nothing takes no meaning from another.**
* `Ty.Spells` — the written names of a type, with blanks wherever they do not count.
* `TypeNames.Standard.standsFor` — **a spelling stands for the type**, where names are standard.
* `Ty.text_injective` — different types have different written names.
-/

namespace ImpTree

/-! ## Blanks -/

/-- No blank stands at an end of the text. -/
def IsTrimmed (text : List Char) : Prop :=
  text.head?.any isBlank = false ∧ text.getLast?.any isBlank = false

instance : DecidablePred IsTrimmed := fun _ => instDecidableAnd

/-- Trimming takes off what blanks surround a text. -/
theorem trimBlank_surrounded {before text after : List Char} (hbefore : ∀ c ∈ before, isBlank c)
    (htext : IsTrimmed text) (hafter : ∀ c ∈ after, isBlank c) :
    trimBlank (before ++ text ++ after) = text := by
  have hstart : (before ++ text ++ after).dropWhile isBlank =
      (text ++ after).dropWhile isBlank := by
    rw [List.append_assoc, List.dropWhile_append_of_pos hbefore]
  have hend : (after.reverse ++ text.reverse).dropWhile isBlank = text.reverse.dropWhile isBlank :=
    List.dropWhile_append_of_pos fun c hc => hafter c (List.mem_reverse.1 hc)
  have hlast : text.reverse.dropWhile isBlank = text.reverse := by
    cases hreverse : text.reverse with
    | nil => rfl
    | cons c rest =>
      have hc : text.getLast? = some c := by rw [List.getLast?_eq_head?_reverse, hreverse]; rfl
      have hblank := htext.2
      rw [hc, Option.any_some] at hblank
      rw [List.dropWhile_cons_of_neg (by rw [hblank]; decide)]
  rw [trimBlank, hstart]
  cases text with
  | nil => rw [List.nil_append, List.dropWhile_eq_nil_iff.2 hafter]; rfl
  | cons c rest =>
    have hc : isBlank c = false := htext.1
    rw [List.cons_append, List.dropWhile_cons_of_neg (by rw [hc]; decide), ← List.cons_append,
      List.reverse_append, hend, hlast, List.reverse_reverse]

theorem IsTrimmed.trimBlank_eq {text : List Char} (h : IsTrimmed text) : trimBlank text = text := by
  have hnone : ∀ c ∈ ([] : List Char), isBlank c := List.forall_mem_nil _
  simpa using trimBlank_surrounded hnone h hnone

/-- Trimming leaves no blank at an end. -/
theorem isTrimmed_trimBlank (text : List Char) : IsTrimmed (trimBlank text) := by
  rw [IsTrimmed, Option.any_eq_false, Option.any_eq_false]
  constructor
  · intro c hc
    obtain ⟨rest, hrest⟩ := List.head?_eq_some_iff.1 hc
    obtain ⟨after, hafter⟩ : trimBlank text <+: text.dropWhile isBlank := List.rdropWhile_prefix _ _
    have hfirst := List.head?_dropWhile_not isBlank text
    rwa [← hafter, hrest] at hfirst
  · intro c hc
    have hne : trimBlank text ≠ [] := by rintro heq; rw [heq] at hc; cases hc
    have hlast := List.rdropWhile_last_not isBlank (text.dropWhile isBlank) hne
    rw [← (List.getLast_eq_iff_getLast?_eq_some hne).2 hc]
    exact Bool.eq_false_iff.2 hlast

@[simp]
theorem trimBlank_trimBlank (text : List Char) : trimBlank (trimBlank text) = trimBlank text :=
  (isTrimmed_trimBlank text).trimBlank_eq

/-! ## Looking names up -/

/-- How the name of a list type begins. -/
def Ty.listOpening : List Char := ['L', 'i', 's', 't', '<']

theorem listElement?_eq_some_iff {name inner : List Char} :
    TypeNames.listElement? name = some inner ↔ name = Ty.listOpening ++ inner ++ ['>'] := by
  constructor
  · intro h
    rw [TypeNames.listElement?.eq_def] at h
    split at h
    · rename_i rest
      split at h
      · rename_i hlast
        cases h
        obtain ⟨inner, rfl⟩ := List.getLast?_eq_some_iff.1 hlast
        simp [Ty.listOpening]
      · cases h
    · cases h
  · rintro rfl
    simp [TypeNames.listElement?, Ty.listOpening]

namespace TypeNames

/-- The rules by which a name stands for a type.  Blanks at the ends of a name do not count, and a
name for which something is registered is not taken apart. -/
inductive StandsFor (r : TypeNames) : List Char → Ty → Prop where
  /-- The type that is registered under the name. -/
  | entry {name ty} (h : r.entry? (String.ofList (trimBlank name)) = some ty) : StandsFor r name ty
  /-- The list type over the type that the name between the angle brackets stands for. -/
  | list {name inner ty} (hnone : r.entry? (String.ofList (trimBlank name)) = none)
    (hname : trimBlank name = Ty.listOpening ++ inner ++ ['>']) (h : StandsFor r inner ty) :
    StandsFor r name (.list ty)

variable {r : TypeNames} {name : List Char} {ty : Ty}

theorem lookupChars_of_entry (h : r.entry? (String.ofList (trimBlank name)) = some ty) :
    r.lookupChars name = some ty := by
  rw [lookupChars, h]

theorem lookupChars_of_none (h : r.entry? (String.ofList (trimBlank name)) = none) :
    r.lookupChars name =
      (listElement? (trimBlank name)).bind fun inner => (r.lookupChars inner).map Ty.list := by
  rw [lookupChars, h]
  dsimp only
  split <;> rename_i hinner <;> rw [hinner] <;> rfl

/-- Looking a name up follows the rules. -/
theorem lookupChars_eq_some_iff : r.lookupChars name = some ty ↔ r.StandsFor name ty := by
  constructor
  · intro h
    induction name using lookupChars.induct r generalizing ty with
    | case1 name entry hentry =>
      rw [lookupChars_of_entry hentry] at h
      exact .entry (hentry.trans h)
    | case2 name hnone inner hinner ih =>
      rw [lookupChars_of_none hnone, hinner, Option.bind_some, Option.map_eq_some_iff] at h
      obtain ⟨element, helement, rfl⟩ := h
      exact .list hnone (listElement?_eq_some_iff.1 hinner) (ih helement)
    | case3 name hnone hlist =>
      rw [lookupChars_of_none hnone, hlist] at h
      cases h
  · intro h
    induction h with
    | entry h => exact lookupChars_of_entry h
    | list hnone hname _ ih =>
      rw [lookupChars_of_none hnone, listElement?_eq_some_iff.2 hname, Option.bind_some, ih]
      rfl

theorem lookup_eq_some_iff {name : String} :
    r.lookup name = some ty ↔ r.StandsFor name.toList ty := lookupChars_eq_some_iff

theorem resolve_eq_ok_iff {name : String} {span : Span} :
    r.resolve name span = .ok ty ↔ r.lookup name = some ty := by
  rw [resolve]
  cases r.lookup name <;> simp

/-- Only what is left after trimming counts. -/
theorem StandsFor.of_trimBlank {other : List Char} (h : r.StandsFor name ty)
    (htrim : trimBlank other = trimBlank name) : r.StandsFor other ty := by
  cases h with
  | entry h => exact .entry (htrim ▸ h)
  | list hnone hname h => exact .list (htrim ▸ hnone) (htrim.trans hname) h

/-! ## Registering names -/

theorem entry?_register (registered other : String) :
    entry? (r.register registered ty) other =
      if other = registered then some ty else r.entry? other := by
  rw [register, entry?, List.lookup_cons]
  split_ifs with h
  · rw [beq_iff_eq.2 h]
  · rw [beq_eq_false_iff_ne.2 h]
    rfl

/-- **A name that stood for nothing takes no meaning from another.** -/
theorem StandsFor.register {registered : String} {new : Ty} (h : r.StandsFor name ty)
    (hnew : r.contains registered = false) : (r.register registered new).StandsFor name ty := by
  -- what a name stands for is not registered under it: the name stood for something before
  have hne : ∀ {name ty}, r.StandsFor name ty → String.ofList (trimBlank name) ≠ registered := by
    rintro name ty h rfl
    have hstands : r.StandsFor (String.ofList (trimBlank name)).toList ty :=
      h.of_trimBlank (by rw [String.toList_ofList, trimBlank_trimBlank])
    rw [contains, lookup_eq_some_iff.2 hstands] at hnew
    cases hnew
  induction h with
  | entry h => exact .entry (by rw [entry?_register, if_neg (hne (.entry h)), h])
  | list hnone hname h ih =>
    exact .list (by rw [entry?_register, if_neg (hne (.list hnone hname h)), hnone]) hname ih

/-- Registers names with their types, one after the other. -/
def registerAll (r : TypeNames) (registrations : List (String × Ty)) : TypeNames :=
  registrations.foldl (fun r (name, ty) => r.register name ty) r

/-- The type that was registered last under exactly this name. -/
def latest? (registrations : List (String × Ty)) (name : String) : Option Ty :=
  registrations.reverse.lookup name

theorem entries_registerAll (registrations : List (String × Ty)) :
    (r.registerAll registrations).entries = registrations.reverse ++ r.entries := by
  induction registrations generalizing r with
  | nil => rfl
  | cons e rest ih =>
    rw [registerAll, List.foldl_cons]
    exact ih.trans (by simp [register])

/-- What is registered under a name is what was registered last, or what was known before. -/
theorem entry?_registerAll (registrations : List (String × Ty)) (name : String) :
    entry? (r.registerAll registrations) name =
      (latest? registrations name).or (r.entry? name) := by
  unfold entry?
  rw [entries_registerAll, List.lookup_append]
  rfl

theorem latest?_eq_none {registrations : List (String × Ty)} {name : String}
    (h : ∀ e ∈ registrations, e.1 ≠ name) : latest? registrations name = none := by
  rw [latest?, List.lookup_eq_none_iff]
  exact fun e he => bne_iff_ne.2 (h e (List.mem_reverse.1 he)).symm

/-- The built-in types are known under their own names, and nothing else is known. -/
theorem entry?_builtin {name : String} :
    builtin.entry? name = some ty ↔ ty ∈ Ty.builtins ∧ ty.text = name := by
  constructor
  · intro h
    obtain ⟨before, after, hentries, -⟩ := List.lookup_eq_some_iff.1 h
    have hmem : (name, ty) ∈ builtin.entries := by
      rw [hentries]
      exact List.mem_append_right _ List.mem_cons_self
    obtain ⟨known, hknown, heq⟩ := List.mem_map.1 hmem
    cases heq
    exact ⟨hknown, rfl⟩
  · rintro ⟨h, rfl⟩
    exact (by decide : ∀ ty ∈ Ty.builtins, builtin.entry? ty.text = some ty) ty h

end TypeNames

/-! ## Spellings -/

/-- The written names of a type.  Blanks may stand around a name and just inside each pair of angle
brackets. -/
inductive Ty.Spells : Ty → List Char → Prop where
  /-- A built-in type under its own name. -/
  | builtin {ty before after} (hty : ty ∈ Ty.builtins) (hbefore : ∀ c ∈ before, isBlank c)
    (hafter : ∀ c ∈ after, isBlank c) : Spells ty (before ++ ty.text.toList ++ after)
  /-- A list type, by a spelling of its element type. -/
  | list {element inner before after} (h : Spells element inner)
    (hbefore : ∀ c ∈ before, isBlank c) (hafter : ∀ c ∈ after, isBlank c) :
    Spells (.list element) (before ++ (Ty.listOpening ++ inner ++ ['>']) ++ after)

/-- The written form of a type spells it. -/
theorem Ty.spells_text (ty : Ty) : ty.Spells ty.text.toList := by
  have hnone : ∀ c ∈ ([] : List Char), isBlank c := List.forall_mem_nil _
  induction ty with
  | list element ih =>
    have htext : (Ty.list element).text.toList =
        Ty.listOpening ++ element.text.toList ++ ['>'] := by
      show (("List<" ++ element.text) ++ ">").toList = _
      rw [String.toList_append, String.toList_append]
      rfl
    rw [htext]
    simpa using Ty.Spells.list ih hnone hnone
  | _ => simpa using Ty.Spells.builtin (by decide) hnone hnone

namespace TypeNames

variable {r : TypeNames} {name : List Char} {ty : Ty}

/-- Names of built-in types and names of the form of list types mean what they say: the former are
known as such, and nothing is registered under the latter. -/
structure Standard (r : TypeNames) : Prop where
  /-- Built-in types are known under their own names. -/
  builtins : ∀ ty ∈ Ty.builtins, r.entry? ty.text = some ty
  /-- Nothing is known under a name that begins like that of a list type. -/
  lists : ∀ name, Ty.listOpening <+: name → r.entry? (String.ofList name) = none

/-- **A spelling stands for the type** that it spells. -/
theorem Standard.standsFor (hr : r.Standard) (h : ty.Spells name) : r.StandsFor name ty := by
  induction h with
  | @builtin ty before after hty hbefore hafter =>
    have htrim : trimBlank (before ++ ty.text.toList ++ after) = ty.text.toList :=
      trimBlank_surrounded hbefore
        ((by decide : ∀ ty ∈ Ty.builtins, IsTrimmed ty.text.toList) ty hty) hafter
    exact .entry (by rw [htrim, String.ofList_toList, hr.builtins ty hty])
  | @list element inner before after _ hbefore hafter ih =>
    have htrimmed : IsTrimmed (Ty.listOpening ++ inner ++ ['>']) := by
      refine ⟨(by decide : isBlank 'L' = false), ?_⟩
      rw [List.getLast?_concat]
      decide
    have htrim := trimBlank_surrounded hbefore htrimmed hafter
    refine .list ?_ htrim ih
    rw [htrim]
    exact hr.lists _ ⟨inner ++ ['>'], by rw [List.append_assoc]⟩

/-- The name is neither that of a built-in type nor of the form of a list type's name. -/
def IsFree (name : String) : Prop :=
  (∀ ty ∈ Ty.builtins, name ≠ ty.text) ∧ ¬Ty.listOpening <+: name.toList

instance : DecidablePred IsFree := fun _ => instDecidableAnd

/-- Registrations of free names leave all other names alone. -/
theorem standard_registerAll {registrations : List (String × Ty)}
    (h : ∀ e ∈ registrations, IsFree e.1) : (builtin.registerAll registrations).Standard where
  builtins ty hty := by
    have hnone : latest? registrations ty.text = none :=
      latest?_eq_none fun e he => (h e he).1 ty hty
    rw [entry?_registerAll, hnone, Option.none_or, entry?_builtin]
    exact ⟨hty, rfl⟩
  lists name hname := by
    have hnone : latest? registrations (String.ofList name) = none := by
      refine latest?_eq_none fun e he heq => (h e he).2 ?_
      rwa [heq, String.toList_ofList]
    rw [entry?_registerAll, hnone, Option.none_or, Option.eq_none_iff_forall_ne_some]
    intro ty hty
    obtain ⟨hbuiltin, htext⟩ := entry?_builtin.1 hty
    have hlist : Ty.listOpening <+: ty.text.toList := by rwa [htext, String.toList_ofList]
    exact (by decide : ∀ ty ∈ Ty.builtins, ¬Ty.listOpening <+: ty.text.toList) ty hbuiltin hlist

end TypeNames

/-- Different types have different written names. -/
theorem Ty.text_injective : Function.Injective Ty.text := by
  intro a b h
  have hr : (TypeNames.builtin.registerAll []).Standard :=
    TypeNames.standard_registerAll fun _ h => nomatch h
  have ha := TypeNames.lookup_eq_some_iff.2 (hr.standsFor a.spells_text)
  have hb := TypeNames.lookup_eq_some_iff.2 (hr.standsFor b.spells_text)
  exact Option.some.inj (ha.symm.trans (h ▸ hb))

end ImpTree
