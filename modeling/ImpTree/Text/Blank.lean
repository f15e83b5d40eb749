/-!
# Blank characters

The characters with the Unicode property `White_Space`, and trimming them off both ends of a text.

* `isBlank` — is the character blank?
* `trimBlank` — a text without the blanks at its ends.
-/

namespace ImpTree

/-- The ranges of the characters with the property `White_Space`, both ends included. -/
def blankRanges : List (Nat × Nat) :=
  [(0x09, 0x0D), (0x20, 0x20), (0x85, 0x85), (0xA0, 0xA0), (0x1680, 0x1680), (0x2000, 0x200A),
    (0x2028, 0x2029), (0x202F, 0x202F), (0x205F, 0x205F), (0x3000, 0x3000)]

/-- Is the character blank? -/
def isBlank (c : Char) : Bool :=
  blankRanges.any fun range => range.1 ≤ c.toNat && c.toNat ≤ range.2

/-- The text without the blanks at its start and at its end. -/
def trimBlank (text : List Char) : List Char :=
  ((text.dropWhile isBlank).reverse.dropWhile isBlank).reverse

/-- Trimming never makes a text longer. -/
theorem length_trimBlank_le (text : List Char) : (trimBlank text).length ≤ text.length := by
  have h₁ := (List.dropWhile_sublist isBlank (l := text)).length_le
  have h₂ := (List.dropWhile_sublist isBlank (l := (text.dropWhile isBlank).reverse)).length_le
  simp only [List.length_reverse] at h₂
  simp only [trimBlank, List.length_reverse]
  omega

end ImpTree
