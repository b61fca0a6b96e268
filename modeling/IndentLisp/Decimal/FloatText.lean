import IndentLisp.Decimal.Shortest
import IndentLisp.Text.Numeral

/-!
# The text of floating-point numbers

A number is written with the fewest digits that read back to it: with a point where its leading
digit is not too far from the point, with an exponent otherwise.
-/

set_option autoImplicit false

namespace IndentLisp

/-- How decimals are written. -/
structure DecimalStyle where
  /-- The least exponent of a leading digit that is written without an exponent. -/
  leastPositional : Int
  /-- The least exponent above it that is written with an exponent again. -/
  positionalBound : Int
  /-- The least number of digits of a written exponent. -/
  exponentDigits : Nat

/-- Floating-point numbers are written with a point from `0.0001` to below `1e+16`. -/
def floatStyle : DecimalStyle := ⟨-4, 16, 2⟩

namespace Decimal

/-- The digits of a decimal without the zeros at their end. -/
def significantDigits (decimal : Decimal) : List Char :=
  ((Nat.toDigits 10 decimal.coefficient).reverse.dropWhile (· == '0')).reverse

def leading (decimal : Decimal) : Int :=
  (Nat.toDigits 10 decimal.coefficient).length - 1 + decimal.exponent

/-- Digits with a point after the given number of them; zeros fill up both sides of the point. -/
def positional (digits : List Char) (whole : Int) : List Char :=
  if whole ≤ 0 then '0' :: '.' :: List.replicate (-whole).toNat '0' ++ digits
  else
    let padded := digits ++ List.replicate (whole.toNat - digits.length) '0'
    let places := padded.drop whole.toNat
    padded.take whole.toNat ++ '.' :: if places.isEmpty then ['0'] else places

/-- Digits with a point after the first, and an exponent with its sign. -/
def scientific (style : DecimalStyle) (digits : List Char) (exponent : Int) : List Char :=
  let power := Nat.toDigits 10 exponent.natAbs
  let places := digits.drop 1
  digits.take 1 ++ (if places.isEmpty then [] else '.' :: places)
    ++ 'e' :: (if exponent < 0 then '-' else '+')
    :: List.replicate (style.exponentDigits - power.length) '0' ++ power

def toText (style : DecimalStyle) (decimal : Decimal) : List Char :=
  let digits := decimal.significantDigits
  let leading := decimal.leading
  if style.leastPositional ≤ leading && leading < style.positionalBound then
    positional digits (leading + 1)
  else scientific style digits leading

end Decimal

namespace Binary64

def Meaning.toText : Meaning → List Char
  | notANumber => ['n', 'a', 'n']
  | infinite negative => if negative then ['-', 'i', 'n', 'f'] else ['i', 'n', 'f']
  | finite negative magnitude =>
    (if negative then ['-'] else [])
      ++ if magnitude.significand = 0 then ['0', '.', '0']
        else (Decimal.shortest magnitude).toText floatStyle

def text (x : Float) : String := String.ofList (meaning x).toText

end Binary64

end IndentLisp
