import ImpTree.Error
import ImpTree.Text.Blank
import ImpTree.Ty

/-!
# Type names

Which type a written name stands for.  The names of the built-in types are known from the start;
further names may be registered for any type.

* `TypeNames.builtin` — the names of the built-in types only.
* `TypeNames.register` — one more name; a name that is registered again changes its meaning.
* `TypeNames.lookup` — the type of a name: a registered one, or `List<…>` around a name.
* `TypeNames.resolve` — the same with an error for a name that stands for no type.
-/

namespace ImpTree

/-- The registered names with their types, the latest first. -/
structure TypeNames where
  /-- The entries; of two for one name the first counts. -/
  entries : List (String × Ty)
  deriving Inhabited

namespace TypeNames

/-- The names of the built-in types. -/
def builtin : TypeNames := ⟨Ty.builtins.map fun ty => (ty.text, ty)⟩

/-- Lets a name stand for a type.  The name is kept as it is given, blanks included. -/
def register (r : TypeNames) (name : String) (ty : Ty) : TypeNames :=
  ⟨(name, ty) :: r.entries⟩

/-- The type registered under exactly this name. -/
def entry? (r : TypeNames) (name : String) : Option Ty := r.entries.lookup name

/-- What stands between `List<` and the final `>` of a name. -/
def listElement? : List Char → Option (List Char)
  | 'L' :: 'i' :: 's' :: 't' :: '<' :: rest =>
    if rest.getLast? = some '>' then some rest.dropLast else none
  | _ => none

/-- What is left of a list type's name is shorter than the name. -/
theorem length_listElement?_lt {name inner : List Char} (h : listElement? name = some inner) :
    inner.length < name.length := by
  unfold listElement? at h
  split at h
  · split at h
    · cases h
      simp only [List.length_dropLast, List.length_cons]
      omega
    · cases h
  · cases h

/-- The type that a name stands for.  Blanks around the name do not count; a name that is not
registered may be `List<…>` around the name of the element type. -/
def lookupChars (r : TypeNames) (name : List Char) : Option Ty :=
  match r.entry? (String.ofList (trimBlank name)) with
  | some ty => some ty
  | none =>
    match _hinner : listElement? (trimBlank name) with
    | some inner => (lookupChars r inner).map Ty.list
    | none => none
termination_by name.length
decreasing_by
  have h₁ := length_listElement?_lt _hinner
  have h₂ := length_trimBlank_le name
  omega

/-- The type that a name stands for, if any. -/
def lookup (r : TypeNames) (name : String) : Option Ty := r.lookupChars name.toList

/-- Does the name stand for a type? -/
def contains (r : TypeNames) (name : String) : Bool := (r.lookup name).isSome

/-- The type that a name stands for; the error shows the name as it was written. -/
def resolve (r : TypeNames) (name : String) (span : Span) : Except Error Ty :=
  match r.lookup name with
  | some ty => .ok ty
  | none => .error (.unknownType name span)

end TypeNames

end ImpTree
