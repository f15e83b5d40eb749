import ImpTree.Proofs.Types.Names

/-!
# What registrations do

All registered names stand in one table with those of the built-in types, and a name is looked up
without the blanks at its ends.  So the latest registration under a name wins, also against a
built-in type, and a registration under a name with a blank at an end is never found.

* `TypeNames.lookup_registerAll` — **where a name is looked up**: among the registered names, among
  the built-in types, as the name of a list type.
* `TypeNames.lookup_congr` — only names without blanks at their ends are looked up.
* `TypeNames.lookup_filter_isTrimmed` — registrations under other names do nothing.
* `TypeNames.registrations_effect` — **what registrations do**, and to which names.
-/

namespace ImpTree.TypeNames

variable {r r' : TypeNames} {registrations : List (String × Ty)} {name : String} {ty : Ty}

/-- The name without the blanks at its ends. -/
def plain (name : String) : String := String.ofList (trimBlank name.toList)

theorem plain_of_isTrimmed (h : IsTrimmed name.toList) : plain name = name := by
  rw [plain, h.trimBlank_eq, String.ofList_toList]

/-- Blanks at the ends of a name do not count. -/
@[simp]
theorem lookup_plain (name : String) : r.lookup (plain name) = r.lookup name := by
  have htrim : trimBlank (plain name).toList = trimBlank name.toList := by
    rw [plain, String.toList_ofList, trimBlank_trimBlank]
  refine Option.ext fun ty => ?_
  rw [lookup_eq_some_iff, lookup_eq_some_iff]
  exact ⟨fun h => h.of_trimBlank htrim.symm, fun h => h.of_trimBlank htrim⟩

/-! ## Where a name is looked up -/

/-- The built-in types are known under their own names. -/
theorem entry?_builtin_eq_find? (name : String) :
    builtin.entry? name = Ty.builtins.find? fun ty => ty.text == name := by
  refine Option.ext fun ty => ?_
  rw [entry?_builtin]
  constructor
  · rintro ⟨hty, rfl⟩
    exact (by decide : ∀ ty ∈ Ty.builtins, Ty.builtins.find? (·.text == ty.text) = some ty) ty hty
  · intro h
    have htext := List.find?_some h
    exact ⟨List.mem_of_find?_eq_some h, beq_iff_eq.1 htext⟩

/-- **Where a name is looked up**: first among the registered names, where the latest registration
counts, then among the built-in types, then as the name of a list type. -/
theorem lookup_registerAll (registrations : List (String × Ty)) (name : String) :
    (builtin.registerAll registrations).lookup name =
      ((latest? registrations (plain name)).or
        (Ty.builtins.find? fun ty => ty.text == plain name)).or
        ((listElement? (plain name).toList).bind fun inner =>
          ((builtin.registerAll registrations).lookup (String.ofList inner)).map .list) := by
  have hentry : entry? (builtin.registerAll registrations) (plain name) =
      (latest? registrations (plain name)).or
        (Ty.builtins.find? fun ty => ty.text == plain name) := by
    rw [entry?_registerAll, entry?_builtin_eq_find?]
  rw [← hentry]
  cases hknown : entry? (builtin.registerAll registrations) (plain name) with
  | some ty => exact lookupChars_of_entry hknown
  | none =>
    rw [Option.none_or, lookup, lookupChars_of_none hknown, plain, String.toList_ofList]
    simp only [lookup, String.toList_ofList]

/-! ## Names with blanks at their ends -/

theorem StandsFor.congr {name : List Char}
    (h : ∀ name, IsTrimmed name.toList → r.entry? name = r'.entry? name)
    (hname : r.StandsFor name ty) : r'.StandsFor name ty := by
  have hplain : ∀ name, r.entry? (String.ofList (trimBlank name)) =
      r'.entry? (String.ofList (trimBlank name)) := fun name =>
    h _ (by rw [String.toList_ofList]; exact isTrimmed_trimBlank name)
  induction hname with
  | entry hentry => exact .entry (hplain _ ▸ hentry)
  | list hnone hinner _ ih => exact .list (hplain _ ▸ hnone) hinner ih

/-- Only names without blanks at their ends are looked up. -/
theorem lookup_congr (h : ∀ name, IsTrimmed name.toList → r.entry? name = r'.entry? name) :
    r.lookup = r'.lookup := by
  funext name
  refine Option.ext fun ty => ?_
  rw [lookup_eq_some_iff, lookup_eq_some_iff]
  exact ⟨.congr h, .congr fun name hname => (h name hname).symm⟩

/-- What is registered under a name is the same without registrations under other names. -/
theorem latest?_filter (registrations : List (String × Ty)) (keep : String → Bool)
    (h : keep name = true) :
    latest? (registrations.filter fun e => keep e.1) name = latest? registrations name := by
  rw [latest?, latest?, ← List.filter_reverse]
  induction registrations.reverse with
  | nil => rfl
  | cons e rest ih =>
    obtain ⟨other, ty⟩ := e
    rw [List.filter_cons, List.lookup_cons, ← ih]
    split
    · rw [List.lookup_cons]
    · rename_i hkeep
      have hne : name ≠ other := by
        rintro rfl
        exact hkeep h
      rw [beq_false_of_ne hne]

/-- **Registrations under names with a blank at an end do nothing.** -/
theorem lookup_filter_isTrimmed (registrations : List (String × Ty)) :
    (builtin.registerAll (registrations.filter fun e => decide (IsTrimmed e.1.toList))).lookup =
      (builtin.registerAll registrations).lookup := by
  refine lookup_congr fun name hname => ?_
  have hlatest := latest?_filter registrations (fun name => decide (IsTrimmed name.toList))
    (decide_eq_true hname)
  rw [entry?_registerAll, entry?_registerAll, hlatest]

/-! ## What registrations do -/

/-- **What registrations do.**  The latest registration under a name counts, blanks at the ends of
the name left aside: a built-in name stands for what was registered under it last, and for its own
type if nothing was; any name without a blank at an end stands for what was registered under it
last; and registrations under names with a blank at an end have no effect at all. -/
theorem registrations_effect (registrations : List (String × Ty)) :
    (∀ ty ∈ Ty.builtins, ∀ span, (builtin.registerAll registrations).resolve ty.text span =
      .ok ((latest? registrations ty.text).getD ty)) ∧
    (∀ name ty, latest? registrations name = some ty → IsTrimmed name.toList →
      ∀ span, (builtin.registerAll registrations).resolve name span = .ok ty) ∧
    (∀ name, (builtin.registerAll registrations).lookup name =
      (builtin.registerAll registrations).lookup (plain name)) ∧
    (builtin.registerAll (registrations.filter fun e => decide (IsTrimmed e.1.toList))).resolve =
      (builtin.registerAll registrations).resolve := by
  have hlatest : ∀ name ty, latest? registrations name = some ty → IsTrimmed name.toList →
      ∀ span, (builtin.registerAll registrations).resolve name span = .ok ty := by
    intro name ty hlatest hname span
    rw [resolve_eq_ok_iff, lookup_registerAll, plain_of_isTrimmed hname, hlatest]
    rfl
  refine ⟨fun ty hty span => ?_, hlatest, fun name => (lookup_plain name).symm, ?_⟩
  · have hname := (by decide : ∀ ty ∈ Ty.builtins, IsTrimmed ty.text.toList) ty hty
    cases hregistered : latest? registrations ty.text with
    | some other => exact hlatest _ _ hregistered hname span
    | none =>
      have hfind : Ty.builtins.find? (·.text == ty.text) = some ty := by
        rw [← entry?_builtin_eq_find?, entry?_builtin]
        exact ⟨hty, rfl⟩
      rw [resolve_eq_ok_iff, lookup_registerAll, plain_of_isTrimmed hname, hregistered, hfind]
      rfl
  · funext name span
    rw [resolve, resolve, lookup_filter_isTrimmed]

/-- Where texts are registered as `Integer`, the integers have no name any more; and a registration
under a name with blanks around it cannot be used, not even with the blanks. -/
theorem registrations_effect_integer :
    let registrations := [("Integer", Ty.string), (" Row ", .integer)]
    latest? registrations "Integer" = some .string ∧
      (builtin.registerAll registrations).resolve "Integer" .nowhere = .ok .string ∧
      latest? registrations " Row " = some .integer ∧
      (builtin.registerAll registrations).resolve " Row " .nowhere =
        .error (.unknownType " Row " .nowhere) := by
  obtain ⟨hbuiltin, -, -, hblank⟩ :=
    registrations_effect [("Integer", Ty.string), (" Row ", .integer)]
  refine ⟨rfl, hbuiltin .integer (by decide) .nowhere, rfl, ?_⟩
  rw [← hblank]
  cbv

end ImpTree.TypeNames
