import ImpTree.Proofs.Json.Layout
import ImpTree.Proofs.Text.Numbers

/-!
# Written documents are read back

A document is read back from its compact and from its indented form, and from every other layout, if
its numbers are written as numbers are and its texts and names are proper ones: tokens first, then
documents.

* `Numeral.IsProper` — how numbers are written.
* `Json.readNumber_chars`, `Json.readText_quoted` — the tokens.
* `Json.IsProper` — the documents that come back.
* `Json.read_before` — a document in any layout.
* `Json.parse?_compact`, `Json.parse?_pretty` — **whole texts**.
-/

namespace ImpTree

/-! ## Numbers -/

namespace Numeral

/-- How numbers are written: digits before the point, of which only a lone one may begin with a
zero, perhaps digits after the point, and digits in the exponent if there is one. -/
structure IsProper (n : Numeral) : Prop where
  whole_ne_nil : n.whole ≠ []
  isDigit_whole : ∀ c ∈ n.whole, c.isDigit = true
  head_whole : n.whole.head? ≠ some '0' ∨ n.whole.length = 1
  isDigit_fraction : ∀ c ∈ n.fraction, c.isDigit = true
  exponent_ne_nil : ∀ e ∈ n.exponent, e.2 ≠ []
  isDigit_exponent : ∀ e ∈ n.exponent, ∀ c ∈ e.2, c.isDigit = true

/-- The digits of a natural number, with or without a minus. -/
theorem isProper_digits (negative : Bool) (k : Nat) :
    IsProper ⟨negative, Digits.ofNat k, [], none⟩ where
  whole_ne_nil := Digits.ofNat_ne_nil k
  isDigit_whole _ hc := Digits.isDigit_of_mem_ofNat hc
  head_whole := by
    by_cases hk : k = 0
    · subst hk
      exact .inr rfl
    · exact .inl (Digits.head?_ofNat hk)
  isDigit_fraction := by simp
  exponent_ne_nil := by simp
  isDigit_exponent := by simp

theorem isProper_ofNat (k : Nat) : (ofNat k).IsProper := isProper_digits false k

theorem isProper_ofInt (k : Int) : (ofInt k).IsProper := isProper_digits _ k.natAbs

/-- The point and what follows it. -/
def fractionChars (n : Numeral) : List Char := if n.fraction.isEmpty then [] else '.' :: n.fraction

/-- The exponent with its sign. -/
def exponentChars (n : Numeral) : List Char :=
  match n.exponent with
  | none => []
  | some (negative, digits) => 'e' :: (if negative then '-' else '+') :: digits

theorem chars_eq (n : Numeral) :
    n.chars = (if n.negative then ['-'] else []) ++
      (n.whole ++ (n.fractionChars ++ n.exponentChars)) := by
  rw [chars, List.append_assoc, List.append_assoc]
  rfl

/-- A number is written with digits, a minus, a plus, a point and an `e`. -/
theorem IsProper.mem_chars {n : Numeral} (h : n.IsProper) {c : Char} (hc : c ∈ n.chars) :
    c.isDigit = true ∨ c ∈ ['-', '+', '.', 'e'] := by
  rw [chars_eq, fractionChars, exponentChars] at hc
  simp only [List.mem_append] at hc
  rcases hc with hsign | hwhole | hfraction | hexponent
  · cases hnegative : n.negative with
    | true => simp_all
    | false => simp_all
  · exact .inl (h.isDigit_whole c hwhole)
  · split at hfraction
    · cases hfraction
    · rcases List.mem_cons.1 hfraction with rfl | hfraction
      · simp
      · exact .inl (h.isDigit_fraction c hfraction)
  · cases hcases : n.exponent with
    | none => simp [hcases] at hexponent
    | some e =>
      simp only [hcases, List.mem_cons] at hexponent
      rcases hexponent with rfl | hsign | hdigit
      · simp
      · cases hnegative : e.1 <;> simp_all
      · exact .inl (h.isDigit_exponent e hcases c hdigit)

/-- A number begins with a digit or with a minus. -/
theorem IsProper.chars_eq_cons {n : Numeral} (h : n.IsProper) :
    ∃ c cs, n.chars = c :: cs ∧ (c.isDigit = true ∨ c = '-') := by
  rw [chars_eq]
  obtain ⟨c, whole, hwhole⟩ := List.exists_cons_of_ne_nil h.whole_ne_nil
  cases n.negative with
  | true => exact ⟨'-', _, rfl, .inr rfl⟩
  | false =>
    rw [hwhole]
    exact ⟨c, _, rfl, .inl (h.isDigit_whole c (hwhole ▸ List.mem_cons_self))⟩

end Numeral

namespace Json

/-- The text does not go on with anything that belongs to a number. -/
def EndsNumber (rest : List Char) : Prop :=
  ∀ c ∈ rest.head?, c.isDigit = false ∧ c ≠ '.' ∧ c ≠ 'e' ∧ c ≠ 'E'

/-- Digits are read up to what is no digit. -/
theorem readDigits_append {digits rest : List Char} (hne : digits ≠ [])
    (hdigits : ∀ c ∈ digits, c.isDigit = true) (hrest : ∀ c ∈ rest.head?, c.isDigit = false) :
    readDigits (digits ++ rest) = some (digits, rest) := by
  have hstop : rest.takeWhile Char.isDigit = [] ∧ rest.dropWhile Char.isDigit = rest := by
    cases rest with
    | nil => exact ⟨rfl, rfl⟩
    | cons c rest =>
      have hc : c.isDigit = false := hrest c rfl
      rw [List.takeWhile_cons, List.dropWhile_cons, hc]
      exact ⟨rfl, rfl⟩
  rw [readDigits, digitRun, List.takeWhile_append_of_pos hdigits,
    List.dropWhile_append_of_pos hdigits, hstop.1, hstop.2, List.append_nil]
  cases digits with
  | nil => exact absurd rfl hne
  | cons c digits => rfl

theorem readMinus_of_ne {cs : List Char} (h : cs.head? ≠ some '-') :
    readMinus cs = (false, cs) := by
  rw [readMinus.eq_def]
  split
  · exact absurd rfl h
  · rfl

theorem readFraction_of_ne {cs : List Char} (h : cs.head? ≠ some '.') :
    readFraction cs = some ([], cs) := by
  rw [readFraction.eq_def]
  split
  · exact absurd rfl h
  · rfl

theorem readExponent_of_ne {cs : List Char} (he : cs.head? ≠ some 'e') (hE : cs.head? ≠ some 'E') :
    readExponent cs = some (none, cs) := by
  rw [readExponent.eq_def]
  split
  · exact absurd rfl he
  · exact absurd rfl hE
  · rfl

section Numbers

variable {n : Numeral} {rest : List Char}

/-- The exponent of a number is read. -/
theorem readExponent_append (h : n.IsProper) (hrest : EndsNumber rest) :
    readExponent (n.exponentChars ++ rest) = some (n.exponent, rest) := by
  unfold Numeral.exponentChars
  cases hexponent : n.exponent with
  | none =>
    exact readExponent_of_ne (fun hc => (hrest 'e' hc).2.2.1 rfl) fun hc => (hrest 'E' hc).2.2.2 rfl
  | some e =>
    have hdigits := readDigits_append (h.exponent_ne_nil e hexponent)
      (h.isDigit_exponent e hexponent) fun c hc => (hrest c hc).1
    obtain ⟨negative, digits⟩ := e
    cases negative with
    | true => simp [readExponent, exponentSign, hdigits]
    | false => simp [readExponent, exponentSign, hdigits]

/-- What follows the digits after the point does not go on with them. -/
theorem head?_exponentChars_append (hrest : EndsNumber rest) :
    ∀ c ∈ (n.exponentChars ++ rest).head?, c.isDigit = false ∧ c ≠ '.' := by
  unfold Numeral.exponentChars
  intro c hc
  cases hexponent : n.exponent with
  | none =>
    rw [hexponent] at hc
    exact ⟨(hrest c hc).1, (hrest c hc).2.1⟩
  | some e =>
    rw [hexponent] at hc
    cases hc
    decide

/-- The digits after the point are read. -/
theorem readFraction_append (h : n.IsProper) (hrest : EndsNumber rest) :
    readFraction (n.fractionChars ++ (n.exponentChars ++ rest)) =
      some (n.fraction, n.exponentChars ++ rest) := by
  have hstop := head?_exponentChars_append (n := n) hrest
  unfold Numeral.fractionChars
  cases hfraction : n.fraction with
  | nil => exact readFraction_of_ne fun hc => (hstop '.' hc).2 rfl
  | cons c fraction =>
    have hdigits : ∀ d ∈ c :: fraction, d.isDigit = true :=
      fun d hd => h.isDigit_fraction d (hfraction ▸ hd)
    exact readDigits_append (by simp) hdigits fun d hd => (hstop d hd).1

/-- What follows the digits before the point does not go on with them. -/
theorem head?_fractionChars_append (hrest : EndsNumber rest) :
    ∀ c ∈ (n.fractionChars ++ (n.exponentChars ++ rest)).head?, c.isDigit = false := by
  unfold Numeral.fractionChars
  intro c hc
  cases hfraction : n.fraction with
  | nil =>
    rw [hfraction] at hc
    exact (head?_exponentChars_append hrest c hc).1
  | cons d fraction =>
    rw [hfraction] at hc
    cases hc
    decide

/-- **A number is read back.** -/
theorem readNumber_chars (h : n.IsProper) (hrest : EndsNumber rest) :
    readNumber (n.chars ++ rest) = some (n, rest) := by
  obtain ⟨c, whole, hwhole⟩ := List.exists_cons_of_ne_nil h.whole_ne_nil
  have hc : c.isDigit = true := h.isDigit_whole c (hwhole ▸ List.mem_cons_self)
  have hminus : readMinus (n.chars ++ rest) =
      (n.negative, n.whole ++ (n.fractionChars ++ (n.exponentChars ++ rest))) := by
    rw [Numeral.chars_eq, List.append_assoc, List.append_assoc, List.append_assoc]
    cases n.negative with
    | true => rfl
    | false =>
      refine readMinus_of_ne ?_
      rw [hwhole]
      rintro ⟨⟩
      exact absurd hc (by decide)
  have hdigits := readDigits_append h.whole_ne_nil h.isDigit_whole
    (head?_fractionChars_append (n := n) hrest)
  rw [readNumber, hminus]
  dsimp only
  rw [hdigits]
  simp [h.head_whole, readFraction_append h hrest, readExponent_append h hrest]

end Numbers

/-! ## Texts -/

/-- The control characters that are escaped by a letter. -/
def letterEscaped : List Char := ['\x08', '\t', '\n', '\x0c', '\r']

/-- What a character inside a text is read as. -/
def pieceOf (c : Char) : TextPiece :=
  if c.toNat < 0x20 ∧ c ∉ letterEscaped then .unit c.toNat else .plain c

/-- A control character spells itself by its number. -/
theorem hexUnit?_hexDigit : ∀ n < 0x20,
    hexUnit? '0' '0' (hexDigit (n / 16)) (hexDigit (n % 16)) = some n := by
  decide

/-- One character inside a text is read as one piece. -/
theorem readPieces_escape (c : Char) (seen : List TextPiece) (cs : List Char) :
    readPieces seen (escape c ++ cs) = readPieces (pieceOf c :: seen) cs := by
  by_cases hquote : c = '"'
  · subst hquote
    rfl
  by_cases hbackslash : c = '\\'
  · subst hbackslash
    rfl
  by_cases hplain : 0x20 ≤ c.toNat
  · have hpiece : pieceOf c = .plain c := by
      rw [pieceOf, if_neg fun h => absurd h.1 (Nat.not_lt.2 hplain)]
    rw [escape, if_neg hquote, if_neg hbackslash, if_pos hplain, hpiece]
    show readPieces seen (c :: cs) = _
    rw [readPieces.eq_def]
    split
    · rename_i heq
      cases heq
    · rename_i heq
      cases heq
      exact absurd rfl hquote
    · rename_i heq
      cases heq
      exact absurd rfl hbackslash
    · rename_i heq
      cases heq
      exact absurd rfl hbackslash
    · rename_i heq
      cases heq
      rw [if_neg (Nat.not_lt.2 hplain)]
  by_cases hletter : c ∈ letterEscaped
  · simp only [letterEscaped, List.mem_cons, List.not_mem_nil, or_false] at hletter
    rcases hletter with rfl | rfl | rfl | rfl | rfl <;> rfl
  · have hpiece : pieceOf c = .unit c.toNat := if_pos ⟨Nat.not_le.1 hplain, hletter⟩
    simp only [letterEscaped, List.mem_cons, List.not_mem_nil, or_false, not_or] at hletter
    obtain ⟨hb, ht, hn, hf, hr⟩ := hletter
    rw [escape, if_neg hquote, if_neg hbackslash, if_neg hplain, if_neg hb, if_neg ht, if_neg hn,
      if_neg hf, if_neg hr, hpiece]
    simp only [List.cons_append, List.nil_append, readPieces,
      hexUnit?_hexDigit _ (Nat.not_le.1 hplain)]

/-- The characters inside a text are read as their pieces. -/
theorem readPieces_flatMap (cs : List Char) (seen : List TextPiece) (rest : List Char) :
    readPieces seen (cs.flatMap escape ++ '"' :: rest) =
      some (seen.reverse ++ cs.map pieceOf, rest) := by
  induction cs generalizing seen with
  | nil => rw [List.flatMap_nil, List.nil_append, readPieces, List.map_nil, List.append_nil]
  | cons c cs ih =>
    rw [List.flatMap_cons, List.append_assoc, readPieces_escape, ih, List.reverse_cons,
      List.append_assoc]
    rfl

/-- A piece spells the character that it was read for. -/
theorem spell?_pieceOf (c : Char) (seen : List Char) (rest : List TextPiece) :
    spell? seen (pieceOf c :: rest) = spell? (c :: seen) rest := by
  rw [pieceOf]
  split
  · rename_i h
    have hhigh : isHighHalf c.toNat = false := by
      simp only [isHighHalf, Bool.and_eq_false_iff, decide_eq_false_iff_not]
      omega
    have hlow : isLowHalf c.toNat = false := by
      simp only [isLowHalf, Bool.and_eq_false_iff, decide_eq_false_iff_not]
      omega
    cases rest with
    | nil => simp [spell?, hhigh, hlow]
    | cons piece rest => cases piece <;> simp [spell?, hhigh, hlow]
  · rw [spell?]

/-- Pieces spell the characters that they were read for. -/
theorem spell?_map (cs seen : List Char) :
    spell? seen (cs.map pieceOf) = some (seen.reverse ++ cs) := by
  induction cs generalizing seen with
  | nil => rw [List.map_nil, spell?, List.append_nil]
  | cons c cs ih =>
    rw [List.map_cons, spell?_pieceOf, ih, List.reverse_cons, List.append_assoc]
    rfl

/-- A text is read back. -/
theorem readText_quoted (s : String) (rest : List Char) :
    readText (s.toList.flatMap escape ++ '"' :: rest) = some (some s, rest) := by
  rw [readText, readPieces_flatMap]
  simp [spell?_map]

/-! ## Documents -/

mutual

/-- The documents that are read back: the numbers and the texts are proper ones. -/
def IsProper : Json → Prop
  | null | bool _ => True
  | number n => n.IsProper
  | string text => text.isSome
  | list items => AllProper items
  | object members => MembersProper members

/-- All elements of a list are documents that are read back. -/
def AllProper : List Json → Prop
  | [] => True
  | item :: items => item.IsProper ∧ AllProper items

/-- All members of an object are read back, with their names. -/
def MembersProper : List (JsonText × Json) → Prop
  | [] => True
  | (name, value) :: members => (name.isSome ∧ value.IsProper) ∧ MembersProper members

end

@[simp]
theorem isProper_null : null.IsProper := trivial

@[simp]
theorem isProper_bool (b : Bool) : (bool b).IsProper := trivial

@[simp]
theorem isProper_number {n : Numeral} : (number n).IsProper ↔ n.IsProper := Iff.rfl

@[simp]
theorem isProper_nat (n : Nat) : (nat n).IsProper := Numeral.isProper_ofNat n

@[simp]
theorem isProper_int (n : Int) : (int n).IsProper := Numeral.isProper_ofInt n

@[simp]
theorem isProper_text (s : String) : (text s).IsProper := rfl

@[simp]
theorem isProper_option {α : Type} {f : α → Json} {value : Option α} :
    (option f value).IsProper ↔ ∀ a ∈ value, (f a).IsProper := by
  cases value <;> simp [option]

@[simp]
theorem isProper_list {items : List Json} :
    (list items).IsProper ↔ ∀ item ∈ items, item.IsProper := by
  rw [IsProper]
  induction items with
  | nil => simp [AllProper]
  | cons item items ih => rw [AllProper, ih, List.forall_mem_cons]

@[simp]
theorem isProper_record {members : List (String × Json)} :
    (record members).IsProper ↔ ∀ member ∈ members, member.2.IsProper := by
  rw [record, IsProper]
  induction members with
  | nil => simp [MembersProper]
  | cons member members ih =>
    rw [List.map_cons, MembersProper, ih, List.forall_mem_cons, Option.isSome_some]
    simp

/-! ### Blanks -/

theorem skipSpace_cons {c : Char} (h : isSpace c = false) (cs : List Char) :
    skipSpace (c :: cs) = c :: cs := List.dropWhile_cons_of_neg (by rw [h]; decide)

theorem expect_self {c : Char} (h : isSpace c = false) (cs : List Char) :
    expect c (c :: cs) = some cs := by
  rw [expect, skipSpace_cons h]
  exact if_pos rfl

theorem expect_of_ne {c d : Char} (hd : isSpace d = false) (hne : c ≠ d) (cs : List Char) :
    expect c (d :: cs) = none := by
  rw [expect, skipSpace_cons hd]
  exact if_neg hne

/-- A digit is no blank. -/
theorem isSpace_of_isDigit {c : Char} (h : c.isDigit = true) : isSpace c = false := by
  rw [isSpace]
  simp only [Bool.or_eq_false_iff, beq_eq_false_iff_ne]
  refine ⟨⟨⟨?_, ?_⟩, ?_⟩, ?_⟩ <;> rintro rfl <;> exact absurd h (by decide)

section Blanks

variable {blanks : List Char}

/-- Blanks are skipped. -/
theorem skipSpace_append (h : Blank blanks) (cs : List Char) :
    skipSpace (blanks ++ cs) = skipSpace cs :=
  List.dropWhile_append_of_pos h

theorem expect_append (h : Blank blanks) (c : Char) (cs : List Char) :
    expect c (blanks ++ cs) = expect c cs := by
  rw [expect, expect, skipSpace_append h]

theorem read_append (h : Blank blanks) (steps : Nat) (cs : List Char) :
    read steps (blanks ++ cs) = read steps cs := by
  cases steps with
  | zero => rfl
  | succ steps => rw [read, read, skipSpace_append h]

theorem readItems_append (h : Blank blanks) (steps : Nat) (cs : List Char) :
    readItems steps (blanks ++ cs) = readItems steps cs := by
  cases steps with
  | zero => rfl
  | succ steps => rw [readItems, readItems, read_append h]

theorem readMembers_append (h : Blank blanks) (steps : Nat) (cs : List Char) :
    readMembers steps (blanks ++ cs) = readMembers steps cs := by
  cases steps with
  | zero => rfl
  | succ steps => rw [readMembers, readMembers, expect_append h]

/-- No number goes on with blanks. -/
theorem endsNumber_append (h : Blank blanks) {rest : List Char} (hrest : EndsNumber rest) :
    EndsNumber (blanks ++ rest) := by
  cases blanks with
  | nil => exact hrest
  | cons c blanks =>
    intro d hd
    cases hd
    have hspace : isSpace c = true := h c List.mem_cons_self
    refine ⟨?_, ?_, ?_, ?_⟩
    · by_contra hdigit
      rw [isSpace_of_isDigit (Bool.eq_true_of_not_eq_false hdigit)] at hspace
      cases hspace
    all_goals
      rintro rfl
      exact absurd hspace (by decide)

/-- No number goes on with a comma or a closing bracket. -/
theorem endsNumber_cons {c : Char} (h : c ∈ [',', ']', '\x7d']) (rest : List Char) :
    EndsNumber (c :: rest) := by
  intro d hd
  cases hd
  simp only [List.mem_cons, List.not_mem_nil, or_false] at h
  rcases h with rfl | rfl | rfl <;> decide

end Blanks

/-! ### Steps -/

mutual

/-- Steps that suffice to read a document, whatever its layout is. -/
def steps : Json → Nat
  | null | bool _ | number _ | string _ => 1
  | list items => stepsAll items + 1
  | object members => stepsMembers members + 1

/-- Steps that suffice to read the elements of a list. -/
def stepsAll : List Json → Nat
  | [] => 0
  | item :: items => item.steps + stepsAll items + 1

/-- Steps that suffice to read the members of an object. -/
def stepsMembers : List (JsonText × Json) → Nat
  | [] => 0
  | (_, value) :: members => value.steps + stepsMembers members + 1

end

theorem steps_pos (j : Json) : 0 < j.steps := by
  cases j <;> simp [steps]

/-- A name takes at least its quotes. -/
theorem length_quoteBefore (name : JsonText) (rest : List Char) :
    rest.length + 2 ≤ (quoteBefore name rest).length := by
  cases name with
  | none =>
    simp only [quoteBefore, List.length_cons]
    omega
  | some s =>
    simp only [quoteBefore, List.length_cons, List.length_append]
    omega

mutual

/-- A document takes at least one character for each step. -/
theorem steps_le (l : Layout) : ∀ (j : Json) (level : Nat) (rest : List Char), j.IsProper →
    j.steps + rest.length ≤ (l.before level j rest).length
  | null, _, _, _ | bool true, _, _, _ | bool false, _, _, _ => by
    simp only [steps, Layout.before, compactBefore, List.length_cons]
    omega
  | number n, _, _, h => by
    obtain ⟨c, cs, hcs, -⟩ := Numeral.IsProper.chars_eq_cons h
    simp only [steps, Layout.before, compactBefore, List.length_append, hcs, List.length_cons]
    omega
  | string text, _, rest, _ => by
    have hquotes := length_quoteBefore text rest
    simp only [steps, Layout.before, compactBefore]
    omega
  | list [], _, _, _ | object [], _, _, _ => by
    simp only [steps, stepsAll, stepsMembers, Layout.before, List.length_cons]
    omega
  | list (item :: items), level, rest, h => by
    have hitem := steps_le l item (level + 1)
      (l.itemsBefore (level + 1) items (l.line level ++ ']' :: rest)) h.1
    have hitems := stepsAll_le l items (level + 1) (l.line level ++ ']' :: rest) h.2
    simp only [steps, stepsAll, Layout.before, List.length_cons, List.length_append] at *
    omega
  | object ((name, value) :: members), level, rest, h => by
    have hvalue := steps_le l value (level + 1)
      (l.membersBefore (level + 1) members (l.line level ++ '\x7d' :: rest)) h.1.2
    have hmembers := stepsMembers_le l members (level + 1) (l.line level ++ '\x7d' :: rest) h.2
    have hname := length_quoteBefore name (':' :: (l.gap ++ l.before (level + 1) value
      (l.membersBefore (level + 1) members (l.line level ++ '\x7d' :: rest))))
    simp only [steps, stepsMembers, Layout.before, List.length_cons, List.length_append] at *
    omega

/-- So do the elements of a list. -/
theorem stepsAll_le (l : Layout) : ∀ (items : List Json) (level : Nat) (rest : List Char),
    AllProper items → stepsAll items + rest.length ≤ (l.itemsBefore level items rest).length
  | [], _, _, _ => by simp [stepsAll, Layout.itemsBefore]
  | item :: items, level, rest, h => by
    have hitem := steps_le l item level (l.itemsBefore level items rest) h.1
    have hitems := stepsAll_le l items level rest h.2
    simp only [stepsAll, Layout.itemsBefore, List.length_cons, List.length_append]
    omega

/-- So do the members of an object. -/
theorem stepsMembers_le (l : Layout) : ∀ (members : List (JsonText × Json)) (level : Nat)
    (rest : List Char), MembersProper members →
    stepsMembers members + rest.length ≤ (l.membersBefore level members rest).length
  | [], _, _, _ => by simp [stepsMembers, Layout.membersBefore]
  | (name, value) :: members, level, rest, h => by
    have hvalue := steps_le l value level (l.membersBefore level members rest) h.1.2
    have hmembers := stepsMembers_le l members level rest h.2
    have hname := length_quoteBefore name
      (':' :: (l.gap ++ l.before level value (l.membersBefore level members rest)))
    simp only [stepsMembers, Layout.membersBefore, List.length_cons, List.length_append] at *
    omega

end

/-! ### Reading -/

/-- What begins with a quote is read as a text. -/
theorem read_quote (steps : Nat) (rest : List Char) :
    read (steps + 1) ('"' :: rest) = do
      let (text, rest) ← readText rest
      return (string text, rest) := rfl

/-- What begins with a bracket is read as a list. -/
theorem read_bracket (steps : Nat) (rest : List Char) :
    read (steps + 1) ('[' :: rest) =
      match expect ']' rest with
      | some rest => some (list [], rest)
      | none => do
        let (items, rest) ← readItems steps rest
        return (list items, rest) := rfl

/-- What begins with a brace is read as an object. -/
theorem read_brace (steps : Nat) (rest : List Char) :
    read (steps + 1) ('\x7b' :: rest) =
      match expect '\x7d' rest with
      | some rest => some (object [], rest)
      | none => do
        let (members, rest) ← readMembers steps rest
        return (object members, rest) := rfl

/-- What begins with a digit or with a minus is read as a number. -/
theorem read_number {c : Char} {cs rest : List Char} {n : Numeral}
    (hc : c.isDigit = true ∨ c = '-') (h : readNumber (c :: cs) = some (n, rest)) (steps : Nat) :
    read (steps + 1) (c :: cs) = some (number n, rest) := by
  have hspace : isSpace c = false := by
    rcases hc with hdigit | rfl
    · exact isSpace_of_isDigit hdigit
    · decide
  rw [read, skipSpace_cons hspace]
  split
  case h_7 =>
    rw [h]
    rfl
  all_goals
    rename_i heq
    cases heq
    exact absurd hc (by decide)

/-- After an element of a list, the list goes on behind a comma. -/
theorem readItems_comma {steps : Nat} {cs rest rest' : List Char} {item : Json} {items : List Json}
    (hitem : read steps cs = some (item, ',' :: rest))
    (hitems : readItems steps rest = some (items, rest')) :
    readItems (steps + 1) cs = some (item :: items, rest') := by
  rw [readItems, hitem, Option.bind_eq_bind, Option.bind_some]
  show (readItems steps rest >>= fun found => some (item :: found.1, found.2)) = _
  rw [hitems]
  rfl

/-- After the last element of a list, the list ends with a bracket. -/
theorem readItems_bracket {steps : Nat} {cs blanks rest : List Char} {item : Json}
    (hblanks : Blank blanks) (hitem : read steps cs = some (item, blanks ++ ']' :: rest)) :
    readItems (steps + 1) cs = some ([item], rest) := by
  rw [readItems, hitem, Option.bind_eq_bind, Option.bind_some]
  dsimp only
  rw [skipSpace_append hblanks]
  rfl

/-- Up to its value, a member of an object is a name and a colon. -/
theorem readMembers_name {steps : Nat} {name : String} {cs rest : List Char} {value : Json}
    (hvalue : read steps cs = some (value, rest)) :
    readMembers (steps + 1) (quoteBefore (some name) (':' :: cs)) =
      match skipSpace rest with
      | ',' :: rest => do
        let (members, rest) ← readMembers steps rest
        return ((some name, value) :: members, rest)
      | '\x7d' :: rest => some ([(some name, value)], rest)
      | _ => none := by
  rw [readMembers, quoteBefore, expect_self (by decide)]
  simp only [Option.bind_eq_bind, Option.bind_some, readText_quoted,
    expect_self (show isSpace ':' = false by decide), hvalue]
  rfl

/-- After a member of an object, the object goes on behind a comma. -/
theorem readMembers_comma {steps : Nat} {name : String} {cs rest rest' : List Char} {value : Json}
    {members : List (JsonText × Json)} (hvalue : read steps cs = some (value, ',' :: rest))
    (hmembers : readMembers steps rest = some (members, rest')) :
    readMembers (steps + 1) (quoteBefore (some name) (':' :: cs)) =
      some ((some name, value) :: members, rest') := by
  rw [readMembers_name hvalue]
  show (readMembers steps rest >>= fun found => some ((some name, value) :: found.1, found.2)) = _
  rw [hmembers]
  rfl

/-- After the last member of an object, the object ends with a brace. -/
theorem readMembers_brace {steps : Nat} {name : String} {cs blanks rest : List Char} {value : Json}
    (hblanks : Blank blanks) (hvalue : read steps cs = some (value, blanks ++ '\x7d' :: rest)) :
    readMembers (steps + 1) (quoteBefore (some name) (':' :: cs)) =
      some ([(some name, value)], rest) := by
  rw [readMembers_name hvalue, skipSpace_append hblanks]
  rfl

/-- The first character of a document is no blank and closes no list. -/
theorem before_eq_cons (l : Layout) {j : Json} (h : j.IsProper) (level : Nat) (rest : List Char) :
    ∃ c cs, l.before level j rest = c :: cs ∧ isSpace c = false ∧ c ≠ ']' := by
  cases j with
  | null => exact ⟨'n', _, rfl, by decide, by decide⟩
  | bool b =>
    cases b with
    | true => exact ⟨'t', _, rfl, by decide, by decide⟩
    | false => exact ⟨'f', _, rfl, by decide, by decide⟩
  | number n =>
    obtain ⟨c, cs, hcs, hc⟩ := Numeral.IsProper.chars_eq_cons h
    refine ⟨c, cs ++ rest, by rw [Layout.before, compactBefore, hcs, List.cons_append], ?_, ?_⟩
    · rcases hc with hdigit | rfl
      · exact isSpace_of_isDigit hdigit
      · decide
    · rintro rfl
      exact absurd hc (by decide)
  | string text =>
    cases text with
    | some s => exact ⟨'"', _, rfl, by decide, by decide⟩
    | none => cases h
  | list items => cases items <;> exact ⟨'[', _, rfl, by decide, by decide⟩
  | object members =>
    cases members with
    | nil => exact ⟨'\x7b', _, rfl, by decide, by decide⟩
    | cons member members => exact ⟨'\x7b', _, rfl, by decide, by decide⟩

mutual

/-- **A document is read back from every layout**, with what follows it, by induction on the
document. -/
theorem read_before (l : Layout) : ∀ (j : Json) {n level : Nat} {rest : List Char}, j.IsProper →
    EndsNumber rest → j.steps ≤ n → read n (l.before level j rest) = some (j, rest)
  | j, 0, _, _, _, _, hsteps => absurd hsteps (Nat.not_le.2 j.steps_pos)
  | null, _ + 1, _, _, _, _, _ | bool true, _ + 1, _, _, _, _, _ | bool false, _ + 1, _, _, _, _, _
  | list [], _ + 1, _, _, _, _, _ | object [], _ + 1, _, _, _, _, _ => rfl
  | number k, n + 1, level, rest, h, hrest, _ => by
    have hread := readNumber_chars h hrest
    obtain ⟨c, cs, hcs, hc⟩ := Numeral.IsProper.chars_eq_cons h
    rw [Layout.before, compactBefore]
    rw [hcs, List.cons_append] at hread ⊢
    exact read_number hc hread n
  | string (some s), n + 1, level, rest, _, _, _ => by
    rw [Layout.before, compactBefore, quoteBefore, read_quote, readText_quoted]
    rfl
  | list (item :: items), n + 1, level, rest, h, _, hsteps => by
    have hitems : readItems n (l.line (level + 1) ++ l.before (level + 1) item
        (l.itemsBefore (level + 1) items (l.line level ++ ']' :: rest))) =
          some (item :: items, rest) :=
      readItems_before l (item :: items) h (by simp) (l.blank_line level)
        (Nat.le_of_succ_le_succ hsteps) rfl
    obtain ⟨c, cs, hcs, hspace, hclose⟩ := before_eq_cons l h.1 (level + 1)
      (l.itemsBefore (level + 1) items (l.line level ++ ']' :: rest))
    rw [Layout.before, read_bracket, hitems, expect_append (l.blank_line _), hcs,
      expect_of_ne hspace hclose.symm]
    rfl
  | object ((some name, value) :: members), n + 1, level, rest, h, _, hsteps => by
    have hmembers : readMembers n (l.line (level + 1) ++ quoteBefore (some name)
        (':' :: (l.gap ++ l.before (level + 1) value (l.membersBefore (level + 1) members
          (l.line level ++ '\x7d' :: rest))))) = some ((some name, value) :: members, rest) :=
      readMembers_before l ((some name, value) :: members) h (by simp) (l.blank_line level)
        (Nat.le_of_succ_le_succ hsteps) rfl
    rw [Layout.before, read_brace, hmembers, expect_append (l.blank_line _), quoteBefore,
      expect_of_ne (by decide) (by decide)]
    rfl

/-- The elements of a list are read back up to the bracket, with a comma in front or without. -/
theorem readItems_before (l : Layout) : ∀ (items : List Json) {n level : Nat}
    {blanks cs rest : List Char}, AllProper items → items ≠ [] → Blank blanks → stepsAll items ≤ n →
    l.itemsBefore level items (blanks ++ ']' :: rest) = ',' :: cs →
    readItems n cs = some (items, rest)
  | [], _, _, _, _, _, _, hne, _, _, _ => absurd rfl hne
  | [item], n, level, blanks, cs, rest, h, _, hblanks, hsteps, hcs => by
    obtain ⟨m, rfl⟩ : ∃ m, n = m + 1 := ⟨n - 1, by rw [stepsAll] at hsteps; omega⟩
    rw [Layout.itemsBefore, Layout.itemsBefore, List.cons.injEq] at hcs
    rw [← hcs.2, readItems_append (l.blank_line level)]
    refine readItems_bracket hblanks (read_before l item h.1
      (endsNumber_append hblanks (endsNumber_cons (by simp) rest)) ?_)
    rw [stepsAll] at hsteps
    omega
  | item :: next :: items, n, level, blanks, cs, rest, h, _, hblanks, hsteps, hcs => by
    obtain ⟨m, rfl⟩ : ∃ m, n = m + 1 := ⟨n - 1, by rw [stepsAll] at hsteps; omega⟩
    obtain ⟨cs', hcs'⟩ : ∃ cs', l.itemsBefore level (next :: items) (blanks ++ ']' :: rest) =
        ',' :: cs' := ⟨_, rfl⟩
    rw [Layout.itemsBefore, hcs', List.cons.injEq] at hcs
    rw [← hcs.2, readItems_append (l.blank_line level)]
    rw [stepsAll] at hsteps
    exact readItems_comma (read_before l item h.1 (endsNumber_cons (by simp) cs') (by omega))
      (readItems_before l (next :: items) h.2 (by simp) hblanks (by omega) hcs')

/-- The members of an object are read back up to the brace, with a comma in front or without. -/
theorem readMembers_before (l : Layout) : ∀ (members : List (JsonText × Json)) {n level : Nat}
    {blanks cs rest : List Char}, MembersProper members → members ≠ [] → Blank blanks →
    stepsMembers members ≤ n →
    l.membersBefore level members (blanks ++ '\x7d' :: rest) = ',' :: cs →
    readMembers n cs = some (members, rest)
  | [], _, _, _, _, _, _, hne, _, _, _ => absurd rfl hne
  | [(some name, value)], n, level, blanks, cs, rest, h, _, hblanks, hsteps, hcs => by
    obtain ⟨m, rfl⟩ : ∃ m, n = m + 1 := ⟨n - 1, by rw [stepsMembers] at hsteps; omega⟩
    rw [Layout.membersBefore, Layout.membersBefore, List.cons.injEq] at hcs
    rw [← hcs.2, readMembers_append (l.blank_line level)]
    refine readMembers_brace hblanks ?_
    rw [read_append l.blank_gap]
    refine read_before l value h.1.2 (endsNumber_append hblanks (endsNumber_cons (by simp) rest)) ?_
    rw [stepsMembers] at hsteps
    omega
  | (some name, value) :: next :: members, n, level, blanks, cs, rest, h, _, hblanks, hsteps,
    hcs => by
    obtain ⟨m, rfl⟩ : ∃ m, n = m + 1 := ⟨n - 1, by rw [stepsMembers] at hsteps; omega⟩
    obtain ⟨cs', hcs'⟩ : ∃ cs', l.membersBefore level (next :: members)
        (blanks ++ '\x7d' :: rest) = ',' :: cs' := ⟨_, rfl⟩
    rw [Layout.membersBefore, hcs', List.cons.injEq] at hcs
    rw [← hcs.2, readMembers_append (l.blank_line level)]
    rw [stepsMembers] at hsteps
    refine readMembers_comma ?_
      (readMembers_before l (next :: members) h.2 (by simp) hblanks (by omega) hcs')
    rw [read_append l.blank_gap]
    exact read_before l value h.1.2 (endsNumber_cons (by simp) cs') (by omega)

end

/-- **A text that is a document in a layout is read back.** -/
theorem parse?_before (l : Layout) {j : Json} (h : j.IsProper) (level : Nat) :
    parse? (String.ofList (l.before level j [])) = some j := by
  have hsteps := steps_le l j level [] h
  have hread : read (2 * (l.before level j []).length + 2) (l.before level j []) = some (j, []) :=
    read_before l j h (by intro c hc; cases hc) (by rw [List.length_nil] at hsteps; omega)
  rw [parse?, String.toList_ofList, hread]
  rfl

/-- **A text that is a compact document is read back.** -/
theorem parse?_compact {j : Json} (h : j.IsProper) : parse? j.compact = some j := by
  rw [compact, compactBefore_eq j 0]
  exact parse?_before .tight h 0

/-- **A text that is an indented document is read back.** -/
theorem parse?_pretty {j : Json} (h : j.IsProper) : parse? j.pretty = some j := by
  rw [pretty, prettyBefore_eq]
  exact parse?_before .indented h 0

end Json

end ImpTree
