import ImpTree.Proofs.Decimals.Arithmetic
import ImpTree.Proofs.Text.Numbers

/-!
# Numerals

A numeral is a written decimal number: a sign or none, at least one digit and, after a point, any
number of further digits.  As long as there are not more of these than a scale can say, numerals are
the texts that are read as decimals, and the decimal stands for the number that is written.  Writing
it again gives the canonical one among the numerals with these digits after the point.

* `Digits.trimmed` — digits without superfluous zeros in front.
* `Decimal.Numeral` — a numeral, with its text and the number that it spells.
* `Decimal.Numeral.canonical` — the canonical form of a numeral.
* `Decimal.parse?_numeral`, `Decimal.exists_numeral` — numerals, and nothing else, are read.
* `Decimal.text_ofNumeral` — what is read is written in canonical form.
* `Decimal.numerals_exact` — **reading and writing decimals.**
-/

namespace ImpTree

/-! ## Digits -/

namespace Digits

variable {c : Char} {digits rest : List Char}

/-- The digits without superfluous zeros in front: the last digit always stays. -/
def trimmed : List Char → List Char
  | '0' :: c :: rest => trimmed (c :: rest)
  | digits => digits

@[simp]
theorem trimmed_singleton (c : Char) : trimmed [c] = [c] := by
  rw [trimmed]
  nofun

theorem trimmed_zero_cons (h : rest ≠ []) : trimmed ('0' :: rest) = trimmed rest := by
  cases rest with
  | nil => exact absurd rfl h
  | cons c rest => rw [trimmed]

theorem trimmed_of_ne_zero (h : c ≠ '0') : trimmed (c :: rest) = c :: rest := by
  rw [trimmed]
  intro _ _ hzero
  exact h (List.cons.inj hzero).1

/-- Trimming takes off zeros, and nothing else. -/
theorem exists_trimmed (digits : List Char) :
    ∃ zeros, digits = List.replicate zeros '0' ++ trimmed digits := by
  induction digits with
  | nil => exact ⟨0, by simp [trimmed]⟩
  | cons c rest ih =>
    by_cases hc : c = '0'
    · cases hc
      by_cases hrest : rest = []
      · cases hrest
        exact ⟨0, rfl⟩
      · obtain ⟨zeros, hzeros⟩ := ih
        refine ⟨zeros + 1, ?_⟩
        rw [trimmed_zero_cons hrest, List.replicate_succ, List.cons_append, ← hzeros]
    · exact ⟨0, by rw [trimmed_of_ne_zero hc]; rfl⟩

theorem mem_of_mem_trimmed (h : c ∈ trimmed digits) : c ∈ digits := by
  obtain ⟨zeros, hzeros⟩ := exists_trimmed digits
  rw [hzeros]
  exact List.mem_append_right _ h

theorem mem_trimmed_of_ne_zero (h : c ∈ digits) (hc : c ≠ '0') : c ∈ trimmed digits := by
  obtain ⟨zeros, hzeros⟩ := exists_trimmed digits
  rw [hzeros] at h
  exact (List.mem_append.1 h).resolve_left fun hzero => hc (List.eq_of_mem_replicate hzero)

/-- The last digit stays. -/
theorem trimmed_ne_nil (h : digits ≠ []) : trimmed digits ≠ [] := by
  induction digits with
  | nil => exact absurd rfl h
  | cons c rest ih =>
    by_cases hc : c = '0'
    · cases hc
      by_cases hrest : rest = []
      · cases hrest
        decide
      · rw [trimmed_zero_cons hrest]
        exact ih hrest
    · rw [trimmed_of_ne_zero hc]
      exact List.cons_ne_nil _ _

/-- No other digit is a superfluous zero. -/
theorem head?_trimmed (h : 1 < (trimmed digits).length) : (trimmed digits).head? ≠ some '0' := by
  induction digits with
  | nil => simp [trimmed]
  | cons c rest ih =>
    by_cases hc : c = '0'
    · cases hc
      by_cases hrest : rest = []
      · cases hrest
        simp at h
      · rw [trimmed_zero_cons hrest] at h ⊢
        exact ih h
    · rw [trimmed_of_ne_zero hc]
      simpa using hc

/-- Zeros in front of trimmed digits, up to the number of digits there were, are those digits. -/
theorem padded_trimmed (digits : List Char) :
    List.replicate (digits.length - (trimmed digits).length) '0' ++ trimmed digits = digits := by
  obtain ⟨zeros, hzeros⟩ := exists_trimmed digits
  have hlength := congrArg List.length hzeros
  rw [List.length_append, List.length_replicate] at hlength
  rw [show digits.length - (trimmed digits).length = zeros by omega, ← hzeros]

/-- Trimming digits and then putting zeros in front until one more than the last ones is there trims
all but the last ones.  By induction on the digits before these. -/
theorem padded_trimmed_append {whole : List Char} (hwhole : whole ≠ []) (last : List Char) :
    List.replicate (last.length + 1 - (trimmed (whole ++ last)).length) '0' ++
      trimmed (whole ++ last) = trimmed whole ++ last := by
  induction whole with
  | nil => exact absurd rfl hwhole
  | cons c rest ih =>
    by_cases hc : c = '0'
    · cases hc
      by_cases hrest : rest = []
      · -- the zero before the last digits is trimmed, and is put there again
        cases hrest
        have hpadded := padded_trimmed ('0' :: last)
        rwa [List.length_cons] at hpadded
      · rw [List.cons_append, trimmed_zero_cons hrest, trimmed_zero_cons (by simp [hrest])]
        exact ih hrest
    · rw [List.cons_append, trimmed_of_ne_zero hc, trimmed_of_ne_zero hc, List.length_cons,
        List.length_append, Nat.sub_eq_zero_of_le (by omega)]
      rfl

/-- A digit is the one that its number is written with. -/
theorem digitChar_of_isDigit (h : c.isDigit = true) :
    c.toNat - '0'.toNat < 10 ∧ Nat.digitChar (c.toNat - '0'.toNat) = c := by
  have hrange := Char.isDigit_iff_toNat.1 h
  simp only [Char.reduceToNat] at hrange ⊢
  have hlt : c.toNat - 48 < 10 := by omega
  refine ⟨hlt, Char.toNat_inj.1 ?_⟩
  rw [Nat.toNat_digitChar_of_lt_ten hlt]
  omega

/-- Reading further digits behind a number that is not zero writes them behind it. -/
theorem ofNat_ofDigitChars (h : ∀ c ∈ rest, c.isDigit = true) {n : Nat} (hn : 0 < n) :
    ofNat (Nat.ofDigitChars 10 rest n) = ofNat n ++ rest := by
  induction rest generalizing n with
  | nil => rw [Nat.ofDigitChars_nil, List.append_nil]
  | cons c rest ih =>
    obtain ⟨hlt, hchar⟩ := digitChar_of_isDigit (h c List.mem_cons_self)
    have hone : ofNat (10 * n + (c.toNat - '0'.toNat)) = ofNat n ++ [c] := by
      rw [ofNat, ← Nat.toDigits_append_toDigits (by decide) hn hlt, Nat.toDigits_of_lt_base hlt,
        hchar]
      rfl
    rw [Nat.ofDigitChars_cons, ih (fun d hd => h d (List.mem_cons_of_mem _ hd)) (by omega), hone,
      List.append_assoc, List.singleton_append]

/-- **The number that digits spell is written with them**, superfluous zeros apart. -/
theorem ofNat_value (h : ∀ c ∈ digits, c.isDigit = true) (hne : digits ≠ []) :
    ofNat (value digits) = trimmed digits := by
  induction digits with
  | nil => exact absurd rfl hne
  | cons c rest ih =>
    have hrest : ∀ d ∈ rest, d.isDigit = true := fun d hd => h d (List.mem_cons_of_mem _ hd)
    obtain ⟨hlt, hchar⟩ := digitChar_of_isDigit (h c List.mem_cons_self)
    have hvalue : value (c :: rest) = Nat.ofDigitChars 10 rest (c.toNat - '0'.toNat) := by
      rw [value, Nat.ofDigitChars_cons, Nat.mul_zero, Nat.zero_add]
    by_cases hc : c = '0'
    · cases hc
      by_cases hnil : rest = []
      · cases hnil
        decide
      · rw [trimmed_zero_cons hnil, ← ih hrest hnil, hvalue]
        rfl
    · have hpos : 0 < c.toNat - '0'.toNat := by
        refine Nat.pos_of_ne_zero fun hzero => hc ?_
        rw [← hchar, hzero]
        rfl
      rw [hvalue, ofNat_ofDigitChars hrest hpos, trimmed_of_ne_zero hc, ofNat,
        Nat.toDigits_of_lt_base hlt, hchar, List.singleton_append]

/-- Digits spell zero if all of them are zeros. -/
theorem value_eq_zero_iff (h : ∀ c ∈ digits, c.isDigit = true) :
    value digits = 0 ↔ ∀ c ∈ digits, c = '0' := by
  constructor
  · intro hzero c hc
    have htrimmed := ofNat_value h (List.ne_nil_of_mem hc)
    obtain ⟨zeros, hzeros⟩ := exists_trimmed digits
    rw [hzeros, ← htrimmed, hzero] at hc
    rcases List.mem_append.1 hc with hc | hc
    · exact List.eq_of_mem_replicate hc
    · exact List.mem_singleton.1 hc
  · intro hzeros
    rw [List.eq_replicate_of_mem hzeros, ← List.append_nil (List.replicate _ _), value_replicate]
    rfl

end Digits

/-! ## Numerals -/

/-- What stands in front of the digits. -/
inductive Decimal.Numeral.Sign where
  | absent
  | plus
  | minus
  deriving DecidableEq

/-- The characters of a sign. -/
def Decimal.Numeral.Sign.chars : Sign → List Char
  | absent => []
  | plus => ['+']
  | minus => ['-']

/-- A written decimal number. -/
structure Decimal.Numeral where
  /-- The sign in front. -/
  sign : Numeral.Sign
  /-- The digits before the point. -/
  whole : List Char
  /-- The digits after the point, if there is a point. -/
  fraction? : Option (List Char)
  whole_ne_nil : whole ≠ []
  isDigit_whole : ∀ c ∈ whole, c.isDigit = true
  isDigit_fraction : ∀ c ∈ fraction?.getD [], c.isDigit = true

namespace Decimal.Numeral

/-- The digits after the point, none if there is no point. -/
def fraction (n : Numeral) : List Char := n.fraction?.getD []

/-- All digits, before and after the point. -/
def digits (n : Numeral) : List Char := n.whole ++ n.fraction

/-- What stands after the digits before the point. -/
def tail : Option (List Char) → List Char
  | none => []
  | some fraction => '.' :: fraction

/-- The text of the numeral. -/
def text (n : Numeral) : String := String.ofList (n.sign.chars ++ n.whole ++ tail n.fraction?)

/-- The number that a digit stands for. -/
def digit (c : Char) : ℚ := (c.toNat - '0'.toNat : ℕ)

/-- What digits before a point stand for: each one is worth ten times what it would be worth one
place to the right. -/
def before : List Char → ℚ
  | [] => 0
  | c :: rest => digit c * 10 ^ rest.length + before rest

/-- What digits after a point stand for: tenths, and tenths of what follows. -/
def after : List Char → ℚ
  | [] => 0
  | c :: rest => (digit c + after rest) / 10

/-- The number that the numeral spells. -/
def number (n : Numeral) : ℚ :=
  let magnitude := before n.whole + after n.fraction
  if n.sign = .minus then -magnitude else magnitude

/-! ### Canonical form -/

/-- Does the numeral have a minus sign, and a digit that is not zero? -/
def isNegative (n : Numeral) : Bool := n.sign == .minus && n.digits.any (· != '0')

/-- The numeral without a plus sign, a minus sign in front of a zero, superfluous zeros in front and
a point at the end. -/
def canonical (n : Numeral) : Numeral where
  sign := if n.isNegative then .minus else .absent
  whole := Digits.trimmed n.whole
  fraction? := if n.fraction = [] then none else some n.fraction
  whole_ne_nil := Digits.trimmed_ne_nil n.whole_ne_nil
  isDigit_whole c hc := n.isDigit_whole c (Digits.mem_of_mem_trimmed hc)
  isDigit_fraction c hc := by
    split_ifs at hc with h
    · cases hc
    · exact n.isDigit_fraction c hc

/-- A numeral in canonical form. -/
structure IsCanonical (n : Numeral) : Prop where
  /-- There is no plus sign. -/
  not_plus : n.sign ≠ .plus
  /-- There is no minus sign in front of a zero. -/
  exists_of_minus : n.sign = .minus → ∃ c ∈ n.digits, c ≠ '0'
  /-- No zero in front is superfluous. -/
  not_zero : 1 < n.whole.length → n.whole.head? ≠ some '0'
  /-- There is no point without digits after it. -/
  not_point : n.fraction? ≠ some []

variable (n : Numeral)

theorem isDigit_digits : ∀ c ∈ n.digits, c.isDigit = true := by
  intro c hc
  rcases List.mem_append.1 hc with hc | hc
  · exact n.isDigit_whole c hc
  · exact n.isDigit_fraction c hc

theorem digits_ne_nil : n.digits ≠ [] := List.append_ne_nil_of_left_ne_nil n.whole_ne_nil _

theorem isNegative_iff : n.isNegative = true ↔ n.sign = .minus ∧ ∃ c ∈ n.digits, c ≠ '0' := by
  simp [isNegative]

theorem sign_canonical : n.canonical.sign = if n.isNegative then .minus else .absent := rfl

theorem fraction?_canonical :
    n.canonical.fraction? = if n.fraction = [] then none else some n.fraction := rfl

/-- All digits after the point are kept. -/
theorem fraction_canonical : n.canonical.fraction = n.fraction := by
  rw [fraction, fraction?_canonical]
  split_ifs with h
  · exact h.symm
  · rfl

/-- The canonical form is canonical. -/
theorem isCanonical_canonical : n.canonical.IsCanonical where
  not_plus := by
    rw [sign_canonical]
    split_ifs <;> nofun
  exists_of_minus h := by
    rw [sign_canonical] at h
    split_ifs at h with hnegative
    obtain ⟨-, c, hc, hzero⟩ := n.isNegative_iff.1 hnegative
    refine ⟨c, ?_, hzero⟩
    rw [digits, fraction_canonical]
    rcases List.mem_append.1 hc with hwhole | hfraction
    · exact List.mem_append_left _ (Digits.mem_trimmed_of_ne_zero hwhole hzero)
    · exact List.mem_append_right _ hfraction
  not_zero h := Digits.head?_trimmed h
  not_point := by
    rw [fraction?_canonical]
    split_ifs with h
    · nofun
    · exact fun hnil => h (Option.some.inj hnil)

end Decimal.Numeral

namespace Decimal

/-! ## Reading -/

/-- The decimal of a numeral: its digits, read as one integer, at the scale of the digits after the
point. -/
def ofNumeral (n : Numeral) : Decimal :=
  ⟨signed (n.sign == .minus) (Digits.value n.digits), .ofNat 32 n.fraction.length⟩

variable (n : Numeral)

theorem scale_ofNumeral {n : Numeral} (h : n.fraction.length ≤ maxScale) :
    (ofNumeral n).scale = n.fraction.length := by
  rw [maxScale] at h
  exact Nat.mod_eq_of_lt (by omega)

/-- What a list of digits spells is what its first digit and the other ones spell. -/
theorem cast_value_cons (c : Char) (rest : List Char) :
    (Digits.value (c :: rest) : ℚ) = Numeral.digit c * 10 ^ rest.length + Digits.value rest := by
  rw [Digits.value, Nat.ofDigitChars_cons, Nat.ofDigitChars_eq_ofDigitChars_zero, Nat.mul_zero,
    Nat.zero_add]
  push_cast
  rw [mul_comm]
  rfl

/-- Behind a point, digits stand for the integer that they spell, with its point moved. -/
theorem cast_value_div (digits : List Char) :
    (Digits.value digits : ℚ) / 10 ^ digits.length = Numeral.after digits := by
  induction digits with
  | nil => exact (div_one _).trans Nat.cast_zero
  | cons c rest ih =>
    rw [cast_value_cons, List.length_cons, pow_succ, ← div_div, add_div,
      mul_div_cancel_right₀ _ (ten_pow_ne_zero _), ih, Numeral.after]

/-- Reading all digits as one integer and moving the point back separates them again. -/
theorem cast_value_append (whole fraction : List Char) :
    (Digits.value (whole ++ fraction) : ℚ) / 10 ^ fraction.length =
      Numeral.before whole + Numeral.after fraction := by
  induction whole with
  | nil => rw [List.nil_append, cast_value_div, Numeral.before, zero_add]
  | cons c rest ih =>
    rw [List.cons_append, cast_value_cons, List.length_append, pow_add, ← mul_assoc, add_div,
      mul_div_cancel_right₀ _ (ten_pow_ne_zero _), ih, Numeral.before, add_assoc]

/-- A numeral spells the integer of its digits, with its point moved. -/
theorem number_eq :
    n.number = ((ofNumeral n).unscaled : ℚ) / 10 ^ n.fraction.length := by
  have hmagnitude := cast_value_append n.whole n.fraction
  rw [ofNumeral, Numeral.number, signed]
  dsimp only [Numeral.digits]
  rw [← hmagnitude]
  by_cases hminus : n.sign = .minus
  · rw [if_pos hminus, if_pos (by rw [hminus]; rfl), Int.cast_neg, Int.cast_natCast, neg_div]
  · rw [if_neg hminus, if_neg (by rwa [beq_iff_eq]), Int.cast_natCast]

/-- The decimal of a numeral stands for the number that the numeral spells. -/
theorem size_ofNumeral {n : Numeral} (h : n.fraction.length ≤ maxScale) :
    (ofNumeral n).size = n.number := by
  rw [size, scale_ofNumeral h, number_eq]

/-- A sign comes off the digits after it. -/
theorem splitSign_chars (sign : Numeral.Sign) {digits : List Char}
    (h : ∀ c ∈ digits, c.isDigit = true) :
    splitSign (sign.chars ++ digits) = (sign == .minus, digits) := by
  cases sign with
  | absent => exact Digits.splitSign_eq h
  | plus => rfl
  | minus => rfl

/-- **Numerals are read** unless there are too many digits after the point. -/
theorem parse?_numeral :
    parse? n.text = if n.fraction.length ≤ maxScale then some (ofNumeral n) else none := by
  have hrest : Numeral.tail n.fraction? = [] ∧ n.fraction = [] ∨
      Numeral.tail n.fraction? = '.' :: n.fraction := by
    rw [Numeral.fraction]
    cases n.fraction? with
    | none => exact .inl ⟨rfl, rfl⟩
    | some fraction => exact .inr rfl
  have hpoint : '.' ∉ n.sign.chars := by
    cases n.sign <;> decide
  exact parse?_of_toList String.toList_ofList hrest hpoint
    (splitSign_chars n.sign n.isDigit_whole) n.whole_ne_nil n.isDigit_digits

/-- A text begins with the sign that is split off. -/
theorem exists_sign (chars : List Char) :
    ∃ sign : Numeral.Sign, chars = sign.chars ++ (splitSign chars).2 := by
  rw [splitSign.eq_def]
  split
  · exact ⟨.minus, rfl⟩
  · exact ⟨.plus, rfl⟩
  · exact ⟨.absent, rfl⟩

/-- A text is what stands before the first point, and the point with what stands after it. -/
theorem exists_fraction? (chars : List Char) :
    ∃ fraction?, chars = chars.takeWhile (· != '.') ++ Numeral.tail fraction? ∧
      fraction?.getD [] = (chars.dropWhile (· != '.')).drop 1 := by
  cases hrest : chars.dropWhile (· != '.') with
  | nil =>
    refine ⟨none, ?_, rfl⟩
    rw [Numeral.tail, ← hrest, List.takeWhile_append_dropWhile]
  | cons c rest =>
    obtain rfl : c = '.' := by
      have hhead := List.head?_dropWhile_not (· != '.') chars
      rw [hrest] at hhead
      simpa using hhead
    refine ⟨some rest, ?_, rfl⟩
    rw [Numeral.tail, ← hrest, List.takeWhile_append_dropWhile]

/-- **Nothing else is read.** -/
theorem exists_numeral {s : String} (h : (parse? s).isSome = true) :
    ∃ n : Numeral, n.text = s ∧ n.fraction.length ≤ maxScale := by
  obtain ⟨sign, hsign⟩ := exists_sign (s.toList.takeWhile (· != '.'))
  obtain ⟨fraction?, hparts, hfraction⟩ := exists_fraction? s.toList
  rw [parse?] at h
  dsimp only at h
  split_ifs at h with hbad hlength
  case pos => cases h
  case neg => cases h
  simp only [Bool.or_eq_true, not_or, Bool.not_eq_true, Bool.not_eq_false',
    List.all_eq_true] at hbad
  obtain ⟨⟨hne, hwhole⟩, hdigits⟩ := hbad
  rw [← hfraction] at hdigits hlength
  refine ⟨⟨sign, _, fraction?, List.isEmpty_eq_false_iff.1 hne, hwhole, hdigits⟩, ?_, hlength⟩
  rw [Numeral.text, ← hsign, ← hparts, String.ofList_toList]

/-! ## Writing -/

/-- The digits of the decimal of a numeral are those of the canonical form. -/
theorem digitParts_ofNumeral {n : Numeral} (h : n.fraction.length ≤ maxScale) :
    (ofNumeral n).digitParts = (Digits.trimmed n.whole, n.fraction) := by
  have habs : (ofNumeral n).unscaled.natAbs = Digits.value n.digits := by
    rw [ofNumeral]
    dsimp only
    rw [signed]
    split_ifs <;> omega
  rw [digitParts, habs, scale_ofNumeral h, Digits.ofNat_value n.isDigit_digits n.digits_ne_nil]
  dsimp only [Numeral.digits]
  rw [Digits.padded_trimmed_append n.whole_ne_nil, List.splitAt_eq, List.length_append,
    Nat.add_sub_cancel, List.take_left, List.drop_left]

/-- The digits of a numeral spell zero unless there is another one than zero. -/
theorem value_ne_zero_iff : Digits.value n.digits ≠ 0 ↔ ∃ c ∈ n.digits, c ≠ '0' := by
  rw [ne_eq, Digits.value_eq_zero_iff n.isDigit_digits]
  push Not
  rfl

/-- The decimal of a numeral is negative if the numeral has a minus sign and is not zero. -/
theorem ofNumeral_neg_iff : (ofNumeral n).unscaled < 0 ↔ n.isNegative = true := by
  rw [n.isNegative_iff, ← value_ne_zero_iff, ofNumeral]
  dsimp only
  rw [signed]
  by_cases hminus : n.sign = .minus
  · rw [if_pos (by rw [hminus]; rfl)]
    simp only [hminus, true_and]
    omega
  · rw [if_neg (by rwa [beq_iff_eq])]
    simp only [hminus, false_and, iff_false]
    omega

/-- The canonical form of a numeral has the decimal of the numeral. -/
theorem ofNumeral_canonical : ofNumeral n.canonical = ofNumeral n := by
  have hvalue : Digits.value n.canonical.digits = Digits.value n.digits := by
    obtain ⟨zeros, hzeros⟩ := Digits.exists_trimmed n.whole
    calc Digits.value n.canonical.digits
        = Digits.value (Digits.trimmed n.whole ++ n.fraction) := by
          rw [Numeral.digits, n.fraction_canonical]
          rfl
      _ = Digits.value (List.replicate zeros '0' ++ Digits.trimmed n.whole ++ n.fraction) := by
          rw [List.append_assoc, Digits.value_replicate]
      _ = Digits.value n.digits := by rw [← hzeros, Numeral.digits]
  have hsigned : signed (n.canonical.sign == .minus) (Digits.value n.digits) =
      signed (n.sign == .minus) (Digits.value n.digits) := by
    rw [n.sign_canonical]
    by_cases hnegative : n.isNegative = true
    · rw [if_pos hnegative, (n.isNegative_iff.1 hnegative).1]
    · rw [if_neg hnegative]
      by_cases hminus : n.sign = .minus
      · -- no digit but zero stands after the sign
        have hzero : Digits.value n.digits = 0 := by
          by_contra hne
          exact hnegative (n.isNegative_iff.2 ⟨hminus, (value_ne_zero_iff n).1 hne⟩)
        rw [hzero, hminus]
        rfl
      · rw [beq_eq_false_iff_ne.2 hminus]
        rfl
  rw [ofNumeral, hvalue, hsigned, n.fraction_canonical]
  rfl

/-- The canonical form of a numeral spells the number that the numeral spells. -/
theorem number_canonical : n.canonical.number = n.number := by
  rw [number_eq, ofNumeral_canonical, n.fraction_canonical, ← number_eq]

/-- **A decimal is written in canonical form.** -/
theorem text_ofNumeral {n : Numeral} (h : n.fraction.length ≤ maxScale) :
    (ofNumeral n).text = n.canonical.text := by
  have hsign : (Integer.sign (ofNumeral n).unscaled).toList = n.canonical.sign.chars := by
    rw [Integer.toList_sign, n.sign_canonical]
    by_cases hnegative : n.isNegative = true
    · rw [if_pos ((ofNumeral_neg_iff n).2 hnegative), if_pos hnegative]
      rfl
    · rw [if_neg (mt (ofNumeral_neg_iff n).1 hnegative), if_neg hnegative]
      rfl
  have htail : (if n.fraction.length = 0 then [] else '.' :: n.fraction) =
      Numeral.tail n.canonical.fraction? := by
    rw [n.fraction?_canonical]
    by_cases hnil : n.fraction = []
    · rw [if_pos hnil, if_pos (by rw [hnil]; rfl)]
      rfl
    · rw [if_neg hnil, if_neg (mt List.length_eq_zero_iff.1 hnil)]
      rfl
  rw [← String.toList_inj, toList_text, hsign, digitParts_ofNumeral h, scale_ofNumeral h,
    Numeral.text, String.toList_ofList, ← htail]
  rfl

/-- **Reading and writing decimals.**  What is written is read back, digit for digit.  A text is
read if and only if it is a numeral with no more digits after the point than a scale can say: a sign
or none, at least one digit and, after a point, further digits or none.  The decimal then stands for
the number that the numeral spells, its scale is the number of digits after the point, and it is
written as the canonical form of the numeral.  The canonical form spells the same number and has no
plus sign, no minus sign in front of a zero, no superfluous zeros in front, no point at the end and
the same digits after the point. -/
theorem numerals_exact :
    (∀ d : Decimal, parse? d.text = some d) ∧
    (∀ s : String, (parse? s).isSome = true ↔
      ∃ n : Numeral, n.text = s ∧ n.fraction.length ≤ maxScale) ∧
    (∀ n : Numeral, n.fraction.length ≤ maxScale → ∃ d, parse? n.text = some d ∧
      d.size = n.number ∧ d.scale = n.fraction.length ∧ d.text = n.canonical.text) ∧
    ∀ n : Numeral, n.canonical.IsCanonical ∧ n.canonical.fraction = n.fraction ∧
      n.canonical.number = n.number := by
  refine ⟨parse?_text, fun s => ⟨exists_numeral, ?_⟩, fun n h => ?_, fun n => ?_⟩
  · rintro ⟨n, rfl, h⟩
    rw [parse?_numeral, if_pos h]
    rfl
  · exact ⟨ofNumeral n, (parse?_numeral n).trans (if_pos h), size_ofNumeral h, scale_ofNumeral h,
      text_ofNumeral h⟩
  · exact ⟨n.isCanonical_canonical, n.fraction_canonical, number_canonical n⟩

/-- The numeral `-007.50`. -/
def sevenAndHalf : Numeral where
  sign := .minus
  whole := ['0', '0', '7']
  fraction? := some ['5', '0']
  whole_ne_nil := by decide
  isDigit_whole := List.all_eq_true.1 rfl
  isDigit_fraction := List.all_eq_true.1 rfl

/-- The sign and the digits after the point stay, superfluous zeros go. -/
theorem numerals_exact_sevenAndHalf :
    sevenAndHalf.text = "-007.50" ∧ sevenAndHalf.canonical.text = "-7.50" ∧
      sevenAndHalf.fraction.length ≤ maxScale ∧
      ∃ d, parse? "-007.50" = some d ∧ d = ⟨-750, 2⟩ ∧ d.size = sevenAndHalf.number ∧
        d.text = "-7.50" := by
  have htext : sevenAndHalf.text = "-007.50" := by decide
  have hcanonical : sevenAndHalf.canonical.text = "-7.50" := by decide
  have hlength : sevenAndHalf.fraction.length ≤ maxScale := by decide
  obtain ⟨d, hread, hsize, -, hwritten⟩ := numerals_exact.2.2.1 sevenAndHalf hlength
  rw [htext] at hread
  rw [hcanonical] at hwritten
  have hvalue : d = ⟨-750, 2⟩ := Option.some.inj (hread.symm.trans (by decide))
  exact ⟨htext, hcanonical, hlength, d, hread, hvalue, hsize, hwritten⟩

end Decimal

end ImpTree
