import IndentLisp.Decimal.Ratio

/-!
# Binary floating-point numbers of 64 bits

The exact meaning of a bit pattern, and the number nearest to a quotient of integers. A pattern is
a sign bit, eleven bits of exponent and 52 bits of fraction; read as natural numbers, the patterns
of positive numbers are in the order of the numbers.
-/

set_option autoImplicit false

namespace IndentLisp.Binary64

/-- The size of a finite number: `significand · 2 ^ exponent`. -/
structure Magnitude where
  significand : Nat
  exponent : Int
  deriving DecidableEq, Repr

inductive Meaning where
  | finite (negative : Bool) (magnitude : Magnitude)
  | infinite (negative : Bool)
  | notANumber
  deriving DecidableEq, Repr

/-- The number of fraction patterns, which is also the significand of a power of two. -/
def hiddenBit : Nat := 0x10000000000000

def signBit : Nat := 0x8000000000000000

/-- The exponent of the last place of the smallest numbers. -/
def leastExponent : Int := -1074

def Magnitude.toRatio (magnitude : Magnitude) : Ratio :=
  Ratio.scale ⟨magnitude.significand, 1⟩ 2 magnitude.exponent

/-- The meaning of a bit pattern, given as a natural number. -/
def meaningOfBits (bits : Nat) : Meaning :=
  let negative := bits / signBit % 2 == 1
  let field := bits / hiddenBit % 2048
  let fraction := bits % hiddenBit
  if field = 2047 then if fraction = 0 then .infinite negative else .notANumber
  else if field = 0 then .finite negative ⟨fraction, leastExponent⟩
  else .finite negative ⟨hiddenBit + fraction, leastExponent + (field - 1 : Nat)⟩

def meaning (x : Float) : Meaning := meaningOfBits x.toBits.toNat

/-- The exponent of the last place at which a positive ratio is rounded: 52 binary places below its
leading one, but never below the least exponent. -/
def roundingExponent (ratio : Ratio) : Int :=
  let estimate : Int := (ratio.num.log2 : Int) - ratio.den.log2
  let scaled := ratio.scale 2 (-estimate)
  let leading := if scaled.num < scaled.den then estimate - 1 else estimate
  max (leading - 52) leastExponent

/-- The bit pattern of the number nearest to a ratio, without its sign. A significand that is
rounded up to the next power of two carries into the exponent by itself. -/
def nearestBits (ratio : Ratio) : Nat :=
  let exponent := roundingExponent ratio
  (exponent - leastExponent).toNat * hiddenBit + (ratio.scale 2 (-exponent)).round

/-- The least bit pattern that is not that of a finite number. -/
def infinityBits : Nat := 2047 * hiddenBit

/-- The number nearest to a ratio with a sign, unless it is too large. -/
def nearest? (negative : Bool) (ratio : Ratio) : Option Float :=
  let bits := if ratio.num = 0 then 0 else nearestBits ratio
  if bits < infinityBits then
    some (Float.ofBits (UInt64.ofNat (if negative then bits + signBit else bits)))
  else none

/-- The number nearest to an integer, unless it is too large. -/
def ofInt? (value : Int) : Option Float := nearest? (value < 0) ⟨value.natAbs, 1⟩

/-- The number nearest to a quotient of integers, unless it is too large. A quotient that is zero or
rounds to zero keeps the sign that the signs of the operands give. -/
def ofQuotient? (dividend divisor : Int) : Option Float :=
  nearest? ((dividend < 0) != (divisor < 0)) ⟨dividend.natAbs, divisor.natAbs⟩

/-- The integer that a number is, if it is finite and whole. -/
def toInt? (x : Float) : Option Int :=
  match meaning x with
  | .finite negative magnitude =>
    let ratio := magnitude.toRatio
    if ratio.num % ratio.den = 0 then
      some (if negative then -(ratio.floor : Int) else ratio.floor)
    else none
  | _ => none

end IndentLisp.Binary64
