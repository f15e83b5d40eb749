import ImpTree.Proofs.Decimals.Arithmetic
import Mathlib.Tactic.IntervalCases

/-!
# Written numbers are read back

The written forms of integers and decimals stand for the numbers they were made from, digit for
digit: the scale of a decimal comes back, too.

* `Digits.head?_ofNat` — only zero begins with a zero.
* `Integer.parse?_text` — **integers**.
* `Decimal.parse?_text` — **decimals**.
-/

namespace ImpTree

/-! ## Digits -/

namespace Digits

/-- A number has at least one digit. -/
theorem ofNat_ne_nil (n : Nat) : ofNat n ≠ [] := Nat.toDigits_ne_nil

/-- The digits of a number with more than one: those of its tenth, and one more. -/
theorem ofNat_of_le {n : Nat} (h : 10 ≤ n) :
    ofNat n = ofNat (n / 10) ++ [Nat.digitChar (n % 10)] :=
  Nat.toDigits_of_base_le (by decide) h

/-- Only zero begins with a zero. -/
theorem head?_ofNat {n : Nat} (hn : n ≠ 0) : (ofNat n).head? ≠ some '0' := by
  induction n using Nat.strongRecOn with
  | _ n ih =>
    by_cases hsmall : n < 10
    · have hdigit : ofNat n = [Nat.digitChar n] := Nat.toDigits_of_lt_base hsmall
      rw [hdigit]
      interval_cases n <;> first | exact absurd rfl hn | decide
    · have htenth := ih (n / 10) (by omega) (by omega)
      rwa [ofNat_of_le (by omega), List.head?_append,
        Option.or_of_isSome (List.isSome_head?.2 (ofNat_ne_nil _))]

/-- Zeros in front change nothing. -/
theorem value_replicate (count : Nat) (digits : List Char) :
    value (List.replicate count '0' ++ digits) = value digits := by
  have hzeros : Nat.ofDigitChars 10 (List.replicate count '0') 0 = 0 := by
    induction count with
    | zero => rfl
    | succ count ih => rw [List.replicate_succ, Nat.ofDigitChars_cons]; exact ih
  rw [value, Nat.ofDigitChars_append, hzeros, value]

/-- Digits have no sign. -/
theorem splitSign_eq {digits : List Char} (h : ∀ c ∈ digits, c.isDigit = true) :
    splitSign digits = (false, digits) := by
  cases digits with
  | nil => rfl
  | cons c rest =>
    have hc : c.isDigit = true := h c List.mem_cons_self
    rw [splitSign.eq_def]
    split
    · rename_i heq
      cases heq
      exact absurd hc (by decide)
    · rename_i heq
      cases heq
      exact absurd hc (by decide)
    · rfl

end Digits

/-! ## Integers -/

namespace Integer

/-- The written form of an integer, sign and digits. -/
theorem toList_sign (n : Int) : (sign n).toList = if n < 0 then ['-'] else [] := by
  rw [sign]
  split <;> rfl

/-- The sign of an integer comes off its digits. -/
theorem splitSign_sign {n : Int} {digits : List Char} (h : ∀ c ∈ digits, c.isDigit = true) :
    splitSign ((sign n).toList ++ digits) = (decide (n < 0), digits) := by
  rw [toList_sign]
  by_cases hn : n < 0
  · rw [if_pos hn, decide_eq_true hn]
    rfl
  · rw [if_neg hn, decide_eq_false hn]
    exact Digits.splitSign_eq h

/-- An integer is its magnitude with its sign. -/
theorem signed_natAbs (n : Int) : signed (decide (n < 0)) n.natAbs = n := by
  rw [signed]
  by_cases hn : n < 0
  · rw [if_pos (decide_eq_true hn)]
    omega
  · rw [if_neg (by rw [decide_eq_false hn]; decide)]
    omega

/-- **A written integer is read back.** -/
theorem parse?_text (n : Int) : parse? (text n) = some n := by
  have hdigits : ∀ c ∈ Digits.ofNat n.natAbs, c.isDigit = true :=
    fun c hc => Digits.isDigit_of_mem_ofNat hc
  rw [parse?, text, String.toList_append, magnitude, String.toList_ofList, splitSign_sign hdigits]
  dsimp only
  cases hcases : Digits.ofNat n.natAbs with
  | nil => exact absurd hcases (Digits.ofNat_ne_nil _)
  | cons first rest =>
    rw [hcases] at hdigits
    have hrest : ∀ c ∈ rest, c.isDigit = true := fun c hc => hdigits c (List.mem_cons_of_mem _ hc)
    have htail : rest.all isTail = true :=
      List.all_eq_true.2 fun c hc => by rw [isTail, hrest c hc, Bool.true_or]
    have hvalue : Digits.value (first :: rest.filter Char.isDigit) = n.natAbs := by
      rw [List.filter_eq_self.2 hrest, ← hcases, Digits.value_ofNat]
    dsimp only
    rw [hdigits first List.mem_cons_self, htail, hvalue, signed_natAbs]
    rfl

end Integer

/-! ## Decimals -/

namespace Decimal

/-- The digits before and after the point: at least one before it, as many after it as the scale
says, and together they spell the unscaled integer. -/
theorem digitParts_spec (d : Decimal) :
    d.digitParts.1 ≠ [] ∧ d.digitParts.2.length = d.scale ∧
      (∀ c ∈ d.digitParts.1 ++ d.digitParts.2, c.isDigit = true) ∧
      Digits.value (d.digitParts.1 ++ d.digitParts.2) = d.unscaled.natAbs := by
  rw [digitParts]
  generalize hpadded : List.replicate (d.scale + 1 - (Digits.ofNat d.unscaled.natAbs).length) '0' ++
    Digits.ofNat d.unscaled.natAbs = padded
  have hlength : d.scale + 1 ≤ padded.length := by
    rw [← hpadded, List.length_append, List.length_replicate]
    omega
  have hdigits : ∀ c ∈ padded, c.isDigit = true := by
    intro c hc
    rw [← hpadded] at hc
    rcases List.mem_append.1 hc with hc | hc
    · rw [List.eq_of_mem_replicate hc]
      decide
    · exact Digits.isDigit_of_mem_ofNat hc
  have hvalue : Digits.value padded = d.unscaled.natAbs := by
    rw [← hpadded, Digits.value_replicate, Digits.value_ofNat]
  rw [List.splitAt_eq, List.take_append_drop]
  refine ⟨?_, ?_, hdigits, hvalue⟩
  · rw [ne_eq, ← List.length_eq_zero_iff, List.length_take]
    omega
  · rw [List.length_drop]
    omega

/-- The written form of a decimal: sign, digits and, at a positive scale, a point and the digits
after it. -/
theorem toList_text (d : Decimal) :
    d.text.toList = (Integer.sign d.unscaled).toList ++ d.digitParts.1 ++
      if d.scale = 0 then [] else '.' :: d.digitParts.2 := by
  rw [text, String.toList_join, pieces]
  by_cases h : d.scale = 0 <;> simp [h]

/-- What is read from a sign and digits, and from the digits after a point if there is one: a
decimal unless there are more of them than a scale can say. -/
theorem parse?_of_toList {s : String} {sign whole fraction rest : List Char} {negative : Bool}
    (hs : s.toList = sign ++ whole ++ rest)
    (hrest : rest = [] ∧ fraction = [] ∨ rest = '.' :: fraction)
    (hpoint : '.' ∉ sign) (hsign : splitSign (sign ++ whole) = (negative, whole))
    (hne : whole ≠ []) (hdigits : ∀ c ∈ whole ++ fraction, c.isDigit = true) :
    parse? s = if fraction.length ≤ maxScale then
      some ⟨signed negative (Digits.value (whole ++ fraction)), .ofNat 32 fraction.length⟩
    else none := by
  have hbefore : ∀ c ∈ sign ++ whole, (c != '.') = true := by
    intro c hc
    rw [bne_iff_ne]
    rintro rfl
    rcases List.mem_append.1 hc with hc | hc
    · exact hpoint hc
    · exact absurd (hdigits _ (List.mem_append_left _ hc)) (by decide)
  have hwhole : s.toList.takeWhile (· != '.') = sign ++ whole := by
    rw [hs, List.takeWhile_append_of_pos hbefore]
    rcases hrest with ⟨rfl, -⟩ | rfl <;> simp
  have hfraction : (s.toList.dropWhile (· != '.')).drop 1 = fraction := by
    rw [hs, List.dropWhile_append_of_pos hbefore]
    rcases hrest with ⟨rfl, rfl⟩ | rfl <;> rfl
  have hnonempty : whole.isEmpty = false := List.isEmpty_eq_false_iff.2 hne
  have hwholeDigits : whole.all Char.isDigit = true :=
    List.all_eq_true.2 fun c hc => hdigits c (List.mem_append_left _ hc)
  have hfractionDigits : fraction.all Char.isDigit = true :=
    List.all_eq_true.2 fun c hc => hdigits c (List.mem_append_right _ hc)
  rw [parse?]
  dsimp only
  rw [hwhole, hfraction, hsign]
  dsimp only
  rw [hnonempty, hwholeDigits, hfractionDigits]
  rfl

/-- **A written decimal is read back**, with its scale. -/
theorem parse?_text (d : Decimal) : parse? d.text = some d := by
  obtain ⟨hne, hscale, hdigits, hvalue⟩ := d.digitParts_spec
  have hrest : (if d.scale = 0 then [] else '.' :: d.digitParts.2) = [] ∧ d.digitParts.2 = [] ∨
      (if d.scale = 0 then [] else '.' :: d.digitParts.2) = '.' :: d.digitParts.2 := by
    by_cases h : d.scale = 0
    · exact .inl ⟨if_pos h, List.length_eq_zero_iff.1 (hscale.trans h)⟩
    · exact .inr (if_neg h)
  have hpoint : '.' ∉ (Integer.sign d.unscaled).toList := by
    rw [Integer.toList_sign]
    split <;> decide
  rw [parse?_of_toList d.toList_text hrest hpoint
    (Integer.splitSign_sign fun c hc => hdigits c (List.mem_append_left _ hc)) hne hdigits, hvalue,
    hscale, if_pos d.scale_le_maxScale, Integer.signed_natAbs, scale, BitVec.ofNat_toNat,
    BitVec.setWidth_eq]

end Decimal

end ImpTree
