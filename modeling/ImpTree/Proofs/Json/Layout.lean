import ImpTree.Json.Reader

/-!
# Layouts of documents

The compact and the indented form of a document are two layouts of it: they differ in the blanks
between tokens and in nothing else.

* `Json.Layout` — where blanks stand, and that they are blanks.
* `Json.Layout.before` — a document in a layout.
* `Json.compactBefore_eq`, `Json.prettyBefore_eq` — **the two written forms as layouts.**
-/

namespace ImpTree.Json

/-! ## Layouts -/

/-- Nothing but characters that may stand between tokens. -/
def Blank (cs : List Char) : Prop := ∀ c ∈ cs, isSpace c = true

/-- The blanks that a written form has between tokens. -/
structure Layout where
  /-- After an opening bracket, after a comma and before a closing bracket, at a level. -/
  line : Nat → List Char
  /-- After a colon. -/
  gap : List Char
  blank_line : ∀ level, Blank (line level)
  blank_gap : Blank gap

namespace Layout

/-- No blanks. -/
def tight : Layout := ⟨fun _ => [], [], by simp [Blank], by simp [Blank]⟩

/-- A line for each element and each member, indented by two blanks a level. -/
def indented : Layout where
  line level := '\n' :: List.replicate (2 * level) ' '
  gap := [' ']
  blank_line level c hc := by
    rcases List.mem_cons.1 hc with rfl | hc
    · rfl
    · rw [List.eq_of_mem_replicate hc]
      rfl
  blank_gap c hc := by
    rw [List.mem_singleton.1 hc]
    rfl

variable (l : Layout)

mutual

/-- A document in a layout at a level, before other characters. -/
def before (level : Nat) : Json → List Char → List Char
  | null, rest => compactBefore null rest
  | bool b, rest => compactBefore (bool b) rest
  | number n, rest => compactBefore (number n) rest
  | string text, rest => compactBefore (string text) rest
  | list [], rest => '[' :: ']' :: rest
  | list (item :: items), rest =>
    '[' :: (l.line (level + 1) ++ before (level + 1) item
      (itemsBefore (level + 1) items (l.line level ++ ']' :: rest)))
  | object [], rest => '\x7b' :: '\x7d' :: rest
  | object ((name, value) :: members), rest =>
    '\x7b' :: (l.line (level + 1) ++ quoteBefore name (':' :: (l.gap ++ before (level + 1) value
      (membersBefore (level + 1) members (l.line level ++ '\x7d' :: rest)))))

/-- The elements of a list after the first, each after a comma. -/
def itemsBefore (level : Nat) : List Json → List Char → List Char
  | [], rest => rest
  | item :: items, rest =>
    ',' :: (l.line level ++ before level item (itemsBefore level items rest))

/-- The members of an object after the first, each after a comma. -/
def membersBefore (level : Nat) : List (JsonText × Json) → List Char → List Char
  | [], rest => rest
  | (name, value) :: members, rest =>
    ',' :: (l.line level ++ quoteBefore name (':' :: (l.gap ++ before level value
      (membersBefore level members rest))))

end

end Layout

open Layout

/-! ## The two written forms -/

mutual

/-- **The compact form** is the layout without blanks, whatever the level. -/
theorem compactBefore_eq : ∀ (j : Json) (level : Nat) (rest : List Char),
    j.compactBefore rest = tight.before level j rest
  | null, _, _ | bool _, _, _ | number _, _, _ | string _, _, _ => by rw [before]
  | list [], _, _ | object [], _, _ => by rw [before, compactBefore]; rfl
  | list (item :: items), level, rest => by
    rw [before, compactBefore, compactItems, compactItems_eq items (level + 1),
      compactBefore_eq item (level + 1)]
    rfl
  | object ((name, value) :: members), level, rest => by
    rw [before, compactBefore, compactMembers, compactMembers_eq members (level + 1),
      compactBefore_eq value (level + 1)]
    rfl

theorem compactItems_eq : ∀ (items : List Json) (level : Nat) (rest : List Char),
    compactItems false items rest = tight.itemsBefore level items rest
  | [], _, _ => by rw [itemsBefore, compactItems]
  | item :: items, level, rest => by
    rw [itemsBefore, compactItems, compactItems_eq items level, compactBefore_eq item level]
    rfl

theorem compactMembers_eq : ∀ (members : List (JsonText × Json)) (level : Nat) (rest : List Char),
    compactMembers false members rest = tight.membersBefore level members rest
  | [], _, _ => by rw [membersBefore, compactMembers]
  | (name, value) :: members, level, rest => by
    rw [membersBefore, compactMembers, compactMembers_eq members level,
      compactBefore_eq value level]
    rfl

end

mutual

/-- **The indented form** is the layout with a line for each element and each member. -/
theorem prettyBefore_eq : ∀ (j : Json) (level : Nat) (rest : List Char),
    j.prettyBefore level rest = indented.before level j rest
  | null, _, _ | bool _, _, _ | number _, _, _ | string _, _, _ => by rw [before, prettyBefore]
  | list [], _, _ | object [], _, _ => by rw [before, prettyBefore]
  | list (item :: items), level, rest => by
    rw [before, prettyBefore, prettyItems_eq items (level + 1), prettyBefore_eq item (level + 1)]
    rfl
  | object ((name, value) :: members), level, rest => by
    rw [before, prettyBefore, prettyMembers_eq members (level + 1),
      prettyBefore_eq value (level + 1)]
    rfl

theorem prettyItems_eq : ∀ (items : List Json) (level : Nat) (rest : List Char),
    prettyItems level items rest = indented.itemsBefore level items rest
  | [], _, _ => by rw [itemsBefore, prettyItems]
  | item :: items, level, rest => by
    rw [itemsBefore, prettyItems, prettyItems_eq items level, prettyBefore_eq item level]
    rfl

theorem prettyMembers_eq : ∀ (members : List (JsonText × Json)) (level : Nat) (rest : List Char),
    prettyMembers level members rest = indented.membersBefore level members rest
  | [], _, _ => by rw [membersBefore, prettyMembers]
  | (name, value) :: members, level, rest => by
    rw [membersBefore, prettyMembers, prettyMembers_eq members level, prettyBefore_eq value level]
    rfl

end

end ImpTree.Json
