import IndentLisp.Decimal.Binary64

/-!
# Shortest decimals

The decimal with the fewest digits among those that round to a given binary number, and of these
the nearest to it. For each count of digits only the two neighbours of the number on the decimal
grid of that count need to be looked at, since a point of the grid that rounds to the number has
one of them between itself and the number.
-/

set_option autoImplicit false

namespace IndentLisp

/-- The number `coefficient · 10 ^ exponent`. -/
structure Decimal where
  coefficient : Nat
  exponent : Int
  deriving DecidableEq, Repr

namespace Decimal

open Binary64 (Magnitude)

/-- Whether a whole number, as a multiple of some unit, rounds to the magnitude, given the same
magnitude as a ratio of that unit. The numbers that round to a magnitude reach half a place up and
down, but a quarter down from a power of two; both ends belong to an even significand. -/
def roundsTo (magnitude : Magnitude) (scaled : Ratio) (multiple : Nat) : Bool :=
  let point := multiple * scaled.den
  let narrow :=
    magnitude.significand == Binary64.hiddenBit && magnitude.exponent != Binary64.leastExponent
  let distance :=
    if scaled.num ≤ point then (point - scaled.num) * (2 * magnitude.significand)
    else (scaled.num - point) * ((if narrow then 4 else 2) * magnitude.significand)
  if magnitude.significand % 2 = 0 then distance ≤ scaled.num else distance < scaled.num

/-- The multiple of `10 ^ exponent` next to a magnitude that rounds to it and is nearest to it, if
one of the two neighbours does; the even one of two that are equally near. -/
def onGrid? (magnitude : Magnitude) (exponent : Int) : Option Decimal :=
  let scaled := magnitude.toRatio.scale 10 (-exponent)
  let below := scaled.floor
  match roundsTo magnitude scaled below, roundsTo magnitude scaled (below + 1) with
  | true, true => some ⟨scaled.round, exponent⟩
  | true, false => some ⟨below, exponent⟩
  | false, true => some ⟨below + 1, exponent⟩
  | false, false => none

/-- The exponent of the leading decimal digit of a positive magnitude. All magnitudes have fewer
than 350 zeros behind the point, so the digits of the number moved up by that many are counted. -/
def leadingExponent (magnitude : Magnitude) : Int :=
  (Nat.toDigits 10 (magnitude.toRatio.scale 10 350).floor).length - 351

/-- The shortest decimal that rounds to a positive magnitude. Seventeen digits always suffice. -/
def shortest (magnitude : Magnitude) : Decimal :=
  let leading := leadingExponent magnitude
  let grids := (List.range 17).map fun (further : Nat) => leading - further
  (grids.findSome? (onGrid? magnitude)).getD
    ⟨(magnitude.toRatio.scale 10 (16 - leading)).round, leading - 16⟩

end Decimal

end IndentLisp
