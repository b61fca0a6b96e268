/-!
# Scaled ratios

Quotients of natural numbers, scaled by powers of a base with any integer exponent, and their
rounding to whole numbers.
-/

set_option autoImplicit false

namespace IndentLisp

/-- The quotient of two natural numbers. The denominator is meant to be positive. -/
structure Ratio where
  num : Nat
  den : Nat
  deriving DecidableEq, Repr

namespace Ratio

/-- The ratio times a power. -/
def scale (ratio : Ratio) (base : Nat) (exponent : Int) : Ratio :=
  if 0 ≤ exponent then ⟨ratio.num * Nat.pow base exponent.toNat, ratio.den⟩
  else ⟨ratio.num, ratio.den * Nat.pow base (-exponent).toNat⟩

/-- The greatest whole number that is not above the ratio. -/
def floor (ratio : Ratio) : Nat := ratio.num / ratio.den

/-- The whole number nearest to the ratio; a tie goes to the even neighbour. -/
def round (ratio : Ratio) : Nat :=
  let quotient := ratio.num / ratio.den
  let twice := 2 * (ratio.num % ratio.den)
  if twice < ratio.den then quotient
  else if ratio.den < twice then quotient + 1
  else quotient + quotient % 2

end Ratio

end IndentLisp
