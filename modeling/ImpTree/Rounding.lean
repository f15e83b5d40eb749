/-!
# Rounding quotients

* `roundedQuotient num den` — the natural number nearest to `num / den`, a half going to the even
  neighbour.
-/

namespace ImpTree

/-- The natural number nearest to `num / den`; of two equally near ones the even one. -/
def roundedQuotient (num den : Nat) : Nat :=
  let quotient := num / den
  let twice := 2 * (num % den)
  if twice < den then quotient
  else if den < twice then quotient + 1
  else quotient + quotient % 2

end ImpTree
