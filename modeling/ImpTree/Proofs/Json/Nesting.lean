import ImpTree.Proofs.Json.ReadBack

/-!
# Nested brackets

How deep the brackets of a text are nested is seen in one pass over its characters: brackets inside
quotes do not count, and a quote after a backslash closes nothing.  How deep those of a document are
nested is seen by recursion.  The compact form of a document keeps the number.

* `Json.nesting` — the brackets of a text.
* `Json.depth` — the brackets of a document.
* `Json.nesting_compact` — **they are the same**.
-/

namespace ImpTree.Json

/-! ## Texts -/

/-- Where a pass over a text stands. -/
inductive ScanPlace where
  /-- Between quotes there is nothing to be skipped. -/
  | outside
  /-- Inside quotes. -/
  | inside
  /-- Inside quotes, behind a backslash. -/
  | escaped

/-- What a pass over a text has seen. -/
structure Scan where
  /-- Where it stands. -/
  place : ScanPlace
  /-- The brackets that are open. -/
  level : Nat
  /-- The most brackets that were open at once. -/
  deepest : Nat

/-- The next character of a pass over a text. -/
def Scan.step (s : Scan) (c : Char) : Scan :=
  match s.place with
  | .outside =>
    if c = '"' then { s with place := .inside }
    else if c = '[' ∨ c = '\x7b' then
      { s with level := s.level + 1, deepest := max s.deepest (s.level + 1) }
    else if c = ']' ∨ c = '\x7d' then { s with level := s.level - 1 }
    else s
  | .inside =>
    if c = '"' then { s with place := .outside }
    else if c = '\\' then { s with place := .escaped }
    else s
  | .escaped => { s with place := .inside }

/-- How deep the brackets of a text are nested. -/
def nesting (s : String) : Nat := (s.toList.foldl Scan.step ⟨.outside, 0, 0⟩).deepest

/-! ## Documents -/

mutual

/-- How deep the brackets of a document are nested. -/
def depth : Json → Nat
  | null | bool _ | number _ | string _ => 0
  | list items => depthAll items + 1
  | object members => depthMembers members + 1

/-- How deep the brackets of the deepest element of a list are nested. -/
def depthAll : List Json → Nat
  | [] => 0
  | item :: items => max item.depth (depthAll items)

/-- How deep the brackets of the deepest member of an object are nested. -/
def depthMembers : List (JsonText × Json) → Nat
  | [] => 0
  | (_, value) :: members => max value.depth (depthMembers members)

end

/-- The brackets of a list take one, those of its elements fit into the others. -/
theorem depth_list_le {items : List Json} {n : Nat} :
    (list items).depth ≤ n + 1 ↔ ∀ item ∈ items, item.depth ≤ n := by
  rw [depth, Nat.add_le_add_iff_right]
  induction items with
  | nil => simp [depthAll]
  | cons item items ih => rw [depthAll, max_le_iff, ih, List.forall_mem_cons]

/-- The brackets of a record take one, those of its members fit into the others. -/
theorem depth_record_le {members : List (String × Json)} {n : Nat} :
    (record members).depth ≤ n + 1 ↔ ∀ member ∈ members, member.2.depth ≤ n := by
  rw [record, depth, Nat.add_le_add_iff_right]
  induction members with
  | nil => simp [depthMembers]
  | cons member members ih =>
    rw [List.map_cons, depthMembers, max_le_iff, ih, List.forall_mem_cons]

/-! ## A pass over the compact form of a document -/

variable {level deepest : Nat}

/-- A hexadecimal digit is neither a quote nor a backslash. -/
theorem hexDigit_ne : ∀ n < 16, hexDigit n ≠ '"' ∧ hexDigit n ≠ '\\' := by
  decide

/-- A plain character inside quotes changes nothing. -/
theorem step_inside {c : Char} (hquote : c ≠ '"') (hbackslash : c ≠ '\\') :
    Scan.step ⟨.inside, level, deepest⟩ c = ⟨.inside, level, deepest⟩ := by
  simp only [Scan.step, if_neg hquote, if_neg hbackslash]

/-- A character inside a text changes nothing. -/
theorem foldl_escape (c : Char) :
    (escape c).foldl Scan.step ⟨.inside, level, deepest⟩ = ⟨.inside, level, deepest⟩ := by
  rw [escape]
  split
  · rfl
  split
  · rfl
  split
  · rename_i hquote hbackslash _
    exact step_inside hquote hbackslash
  iterate 5
    split
    · rfl
  · have hhigh := hexDigit_ne (c.toNat / 16) (by omega)
    have hlow := hexDigit_ne (c.toNat % 16) (by omega)
    show Scan.step (Scan.step ⟨.inside, level, deepest⟩ (hexDigit (c.toNat / 16)))
      (hexDigit (c.toNat % 16)) = _
    rw [step_inside hhigh.1 hhigh.2, step_inside hlow.1 hlow.2]

/-- A text changes nothing. -/
theorem foldl_quoteBefore (text : JsonText) (rest : List Char) :
    (quoteBefore text rest).foldl Scan.step ⟨.outside, level, deepest⟩ =
      rest.foldl Scan.step ⟨.outside, level, deepest⟩ := by
  cases text with
  | none => rfl
  | some s =>
    have hinside : ∀ cs : List Char,
        (cs.flatMap escape).foldl Scan.step ⟨.inside, level, deepest⟩ =
          ⟨.inside, level, deepest⟩ := by
      intro cs
      induction cs with
      | nil => rfl
      | cons c cs ih => rw [List.flatMap_cons, List.foldl_append, foldl_escape, ih]
    show (s.toList.flatMap escape ++ '"' :: rest).foldl Scan.step ⟨.inside, level, deepest⟩ = _
    rw [List.foldl_append, hinside]
    rfl

/-- A number changes nothing: none of its characters is a quote or a bracket. -/
theorem foldl_number {n : Numeral} (h : n.IsProper) :
    n.chars.foldl Scan.step ⟨.outside, level, deepest⟩ = ⟨.outside, level, deepest⟩ := by
  have hplain : ∀ c ∈ n.chars, c ∉ ['"', '[', '\x7b', ']', '\x7d'] := by
    intro c hc
    simp only [List.mem_cons, List.not_mem_nil, or_false]
    rcases h.mem_chars hc with hdigit | hsign
    · rintro (rfl | rfl | rfl | rfl | rfl) <;> exact absurd hdigit (by decide)
    · rintro (rfl | rfl | rfl | rfl | rfl) <;> exact absurd hsign (by decide)
  generalize n.chars = cs at hplain
  induction cs with
  | nil => rfl
  | cons c cs ih =>
    rw [List.forall_mem_cons] at hplain
    have hstep : Scan.step ⟨.outside, level, deepest⟩ c = ⟨.outside, level, deepest⟩ := by
      have hc := hplain.1
      simp only [List.mem_cons, List.not_mem_nil, or_false, not_or] at hc
      simp [Scan.step, hc]
    rw [List.foldl_cons, hstep, ih hplain.2]

/-- A comma changes nothing. -/
theorem foldl_comma (isFirst : Bool) (cs : List Char) :
    ((if isFirst then id else (',' :: ·)) cs).foldl Scan.step ⟨.outside, level, deepest⟩ =
      cs.foldl Scan.step ⟨.outside, level, deepest⟩ := by
  cases isFirst <;> rfl

mutual

/-- A pass over the compact form of a document goes as deep as the document and comes back. -/
theorem foldl_compactBefore : ∀ (j : Json) {level deepest : Nat} {rest : List Char},
    j.IsProper → level ≤ deepest →
    (j.compactBefore rest).foldl Scan.step ⟨.outside, level, deepest⟩ =
      rest.foldl Scan.step ⟨.outside, level, max deepest (level + j.depth)⟩
  | null, _, _, _, _, hlevel => by
    rw [depth, add_zero, max_eq_left hlevel]
    rfl
  | bool true, _, _, _, _, hlevel => by
    rw [depth, add_zero, max_eq_left hlevel]
    rfl
  | bool false, _, _, _, _, hlevel => by
    rw [depth, add_zero, max_eq_left hlevel]
    rfl
  | number n, _, _, _, h, hlevel => by
    rw [depth, add_zero, max_eq_left hlevel, compactBefore, List.foldl_append, foldl_number h]
  | string text, _, _, _, _, hlevel => by
    rw [depth, add_zero, max_eq_left hlevel, compactBefore, foldl_quoteBefore]
  | list items, level, deepest, rest, h, hlevel => by
    have hitems := foldl_compactItems items true (']' :: rest) h
      (le_max_right deepest (level + 1))
    rw [compactBefore, List.foldl_cons]
    show (compactItems true items (']' :: rest)).foldl Scan.step
      ⟨.outside, level + 1, max deepest (level + 1)⟩ = _
    rw [hitems, List.foldl_cons, depth]
    show rest.foldl Scan.step
      ⟨.outside, level, max (max deepest (level + 1)) (level + 1 + depthAll items)⟩ = _
    congr 2
    omega
  | object members, level, deepest, rest, h, hlevel => by
    have hmembers := foldl_compactMembers members true ('\x7d' :: rest) h
      (le_max_right deepest (level + 1))
    rw [compactBefore, List.foldl_cons]
    show (compactMembers true members ('\x7d' :: rest)).foldl Scan.step
      ⟨.outside, level + 1, max deepest (level + 1)⟩ = _
    rw [hmembers, List.foldl_cons, depth]
    show rest.foldl Scan.step
      ⟨.outside, level, max (max deepest (level + 1)) (level + 1 + depthMembers members)⟩ = _
    congr 2
    omega

/-- So does a pass over the elements of a list. -/
theorem foldl_compactItems : ∀ (items : List Json) (isFirst : Bool) (rest : List Char)
    {level deepest : Nat}, AllProper items → level ≤ deepest →
    (compactItems isFirst items rest).foldl Scan.step ⟨.outside, level, deepest⟩ =
      rest.foldl Scan.step ⟨.outside, level, max deepest (level + depthAll items)⟩
  | [], _, _, _, _, _, hlevel => by
    rw [depthAll, add_zero, max_eq_left hlevel, compactItems]
  | item :: items, isFirst, rest, level, deepest, h, hlevel => by
    rw [compactItems, foldl_comma, foldl_compactBefore item h.1 hlevel,
      foldl_compactItems items false rest h.2 (hlevel.trans (le_max_left _ _)), depthAll]
    congr 2
    omega

/-- So does a pass over the members of an object. -/
theorem foldl_compactMembers : ∀ (members : List (JsonText × Json)) (isFirst : Bool)
    (rest : List Char) {level deepest : Nat}, MembersProper members → level ≤ deepest →
    (compactMembers isFirst members rest).foldl Scan.step ⟨.outside, level, deepest⟩ =
      rest.foldl Scan.step ⟨.outside, level, max deepest (level + depthMembers members)⟩
  | [], _, _, _, _, _, hlevel => by
    rw [depthMembers, add_zero, max_eq_left hlevel, compactMembers]
  | (name, value) :: members, isFirst, rest, level, deepest, h, hlevel => by
    have hcolon : Scan.step ⟨.outside, level, deepest⟩ ':' = ⟨.outside, level, deepest⟩ := rfl
    rw [compactMembers, foldl_comma, foldl_quoteBefore, List.foldl_cons, hcolon,
      foldl_compactBefore value h.1.2 hlevel,
      foldl_compactMembers members false rest h.2 (hlevel.trans (le_max_left _ _)), depthMembers]
    congr 2
    omega

end

/-- **The compact form keeps the nesting of brackets.** -/
theorem nesting_compact {j : Json} (h : j.IsProper) : nesting j.compact = j.depth := by
  have hpass : (j.compactBefore []).foldl Scan.step ⟨.outside, 0, 0⟩ =
      ⟨.outside, 0, max 0 (0 + j.depth)⟩ := foldl_compactBefore j h (le_refl 0)
  rw [nesting, compact, String.toList_ofList, hpass]
  simp

end ImpTree.Json
