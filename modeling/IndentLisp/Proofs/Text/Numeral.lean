import IndentLisp.Text.Numeral

/-!
# Runs of digits

A run of digits denotes a number that has no more digits than the run.
-/

set_option autoImplicit false

namespace IndentLisp.Numeral

private theorem ofDigitChars_lt {digits : List Char} (decimal : ∀ c ∈ digits, c.isDigit = true)
    (start : Nat) :
    Nat.ofDigitChars 10 digits start < Nat.pow 10 digits.length * (start + 1) := by
  induction digits generalizing start with
  | nil => simp
  | cons c digits ih =>
      have isDigit : c.isDigit = true := decimal c List.mem_cons_self
      have small : c.toNat - '0'.toNat < 10 := by
        have range := Char.isDigit_iff_toNat.mp isDigit
        have nine : '9'.toNat = '0'.toNat + 9 := rfl
        omega
      rw [Nat.ofDigitChars_cons]
      calc Nat.ofDigitChars 10 digits (10 * start + (c.toNat - '0'.toNat))
          < Nat.pow 10 digits.length * (10 * start + (c.toNat - '0'.toNat) + 1) :=
            ih (fun d member => decimal d (List.mem_cons_of_mem c member)) _
        _ ≤ Nat.pow 10 digits.length * (10 * (start + 1)) :=
            Nat.mul_le_mul_left _ (by omega)
        _ = Nat.pow 10 (c :: digits).length * (start + 1) := by
            rw [← Nat.mul_assoc]
            rfl

theorem fits_ofDigits {digits : List Char} (decimal : ∀ c ∈ digits, c.isDigit = true)
    (short : digits.length ≤ digitLimit) : fits (ofDigits digits) = true := by
  have below := ofDigitChars_lt decimal 0
  rw [Nat.zero_add, Nat.mul_one] at below
  have bounded (limit : Nat) (within : digits.length ≤ limit) :
      ofDigits digits < Nat.pow 10 limit :=
    Nat.lt_of_lt_of_le below (Nat.pow_le_pow_right (by decide) within)
  rw [fits, decide_eq_true_iff]
  unfold bound
  exact bounded digitLimit short

private theorem toText_natCast (value : Nat) : toText value = Nat.toDigits 10 value := by
  have nonneg : ¬ (value : Int) < 0 := by omega
  rw [toText, if_neg nonneg, Int.natAbs_natCast]

theorem isDigit_of_mem_toText {value : Nat} {c : Char} (member : c ∈ toText value) :
    c.isDigit = true := by
  rw [toText_natCast] at member
  exact Nat.isDigit_of_mem_toDigits (by decide) (by decide) member

theorem toText_ne_nil (value : Nat) : toText value ≠ [] := by
  rw [toText_natCast]
  exact Nat.toDigits_ne_nil

theorem length_toText_le {value : Nat} (within : fits value = true) :
    (toText value).length ≤ digitLimit := by
  rw [toText_natCast]
  exact (fits_iff_length_le value).mp within

end IndentLisp.Numeral
