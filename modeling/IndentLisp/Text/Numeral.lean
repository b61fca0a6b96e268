/-!
# Decimal numerals

Integers and their decimal text. Texts of more than `Numeral.digitLimit` digits are refused in both
directions, so a number that can be read can also be written.
-/

set_option autoImplicit false

namespace IndentLisp.Numeral

/-- The greatest number of decimal digits that is read or written. -/
def digitLimit : Nat := 4300

/-- The least natural number that has more digits than the limit admits. -/
def bound : Nat := Nat.pow 10 digitLimit

/-- Whether the decimal text of an integer stays within the limit. -/
def fits (value : Int) : Bool := value.natAbs < bound

/-- The natural number that a run of decimal digits denotes; leading zeros are free. -/
def ofDigits (digits : List Char) : Nat := Nat.ofDigitChars 10 digits 0

/-- The decimal text of an integer, with a sign only if it is negative. -/
def toText (value : Int) : List Char :=
  if value < 0 then '-' :: Nat.toDigits 10 value.natAbs else Nat.toDigits 10 value.natAbs

def text (value : Int) : String := String.ofList (toText value)

/-- Reading the decimal text of a natural number gives the number back. -/
theorem ofDigits_toText (value : Nat) : ofDigits (toText value) = value := by
  have nonneg : ¬ (value : Int) < 0 := by omega
  simp [ofDigits, toText, nonneg]

/-- The numbers below a power of ten are those that have few enough digits. -/
theorem lt_pow_iff_length_le {limit : Nat} (positive : 0 < limit) (value : Nat) :
    value < Nat.pow 10 limit ↔ (Nat.toDigits 10 value).length ≤ limit := by
  rw [Nat.length_toDigits_le_iff (by decide) positive, Nat.pow_eq]

theorem fits_iff_length_le (value : Int) :
    fits value = true ↔ (Nat.toDigits 10 value.natAbs).length ≤ digitLimit := by
  rw [fits, decide_eq_true_iff]
  unfold bound
  exact lt_pow_iff_length_le (by decide) value.natAbs

end IndentLisp.Numeral
