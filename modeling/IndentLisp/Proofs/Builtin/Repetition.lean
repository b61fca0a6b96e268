import IndentLisp.Builtin.Call

/-!
# Products with a text or a list

A product that comes to a text or a list repeats it from there on. Before it the integers are
multiplied; behind it each one is a count of its own, and a negative count is as good as zero.
-/

set_option autoImplicit false

namespace IndentLisp

namespace Value

/-- The integer that a value counts as, if it is one or a truth value. -/
def integer? : Value → Option Int
  | bool value => some (if value then 1 else 0)
  | int value => some value
  | _ => none

/-- A text or a list, so many times in a row. -/
def times (count : Nat) : Value → Value
  | text value => text (String.ofList (List.replicate count value.toList).flatten)
  | list items => list (List.replicate count items).flatten
  | other => other

/-! ## Repeating -/

private theorem repeatList_eq {α : Type} (count : Nat) (items : List α) :
    repeatList count items = (List.replicate count items).flatten := by
  cases items with
  | nil => simp [repeatList]
  | cons => rfl

private theorem flatten_replicate_flatten {α : Type} (first second : Nat) (items : List α) :
    (List.replicate second (List.replicate first items).flatten).flatten =
      (List.replicate (first * second) items).flatten := by
  induction second with
  | zero => rfl
  | succ second ih =>
      rw [List.replicate_succ, List.flatten_cons, ih, ← List.flatten_append,
        List.replicate_append_replicate, Nat.add_comm, ← Nat.mul_succ]

private theorem times_times (first second : Nat) (sequence : Value) :
    (sequence.times first).times second = sequence.times (first * second) := by
  cases sequence with
  | text | list => simp [times, flatten_replicate_flatten]
  | nothing | bool | int | float | builtin | host => rfl

private theorem times_one (sequence : Value) : sequence.times 1 = sequence := by
  cases sequence <;> simp [times]

private theorem isSequence_times (count : Nat) (sequence : Value) :
    (sequence.times count).isSequence = sequence.isSequence := by
  cases sequence <;> rfl

/-! ## Multiplying two values -/

variable {sequence value : Value} {count : Int}

private theorem number?_of_integer? (isInteger : value.integer? = some count) :
    value.number? = some (.int count) := by
  cases value <;> simp_all [integer?, number?]

private theorem number?_of_isSequence (repeats : sequence.isSequence = true) :
    sequence.number? = none := by
  cases sequence <;> simp_all [isSequence, number?]

private theorem repeated_integer (repeats : sequence.isSequence = true)
    (isInteger : value.integer? = some count) :
    sequence.repeated value =
      if isWord count then .ok (sequence.times count.toNat) else .error .countTooLarge := by
  simp only [repeated, number?_of_integer? isInteger]
  cases isWord count with
  | false => rfl
  | true => cases sequence <;> simp_all [isSequence, times, repeatList_eq]

private theorem repeated_other (other : value.integer? = none) :
    sequence.repeated value = .error (.repeatCount value.typeName) := by
  cases value <;> simp_all [integer?, repeated, number?]

private theorem multiply_of_isSequence (repeats : sequence.isSequence = true) :
    sequence.multiply value = sequence.repeated value := by
  simp [multiply, number?_of_isSequence repeats, repeats]

private theorem multiply_integers {start : Int} (isInteger : value.integer? = some count) :
    (int start).multiply value = .ok (.int (start * count)) := by
  have start_integer : (int start).number? = some (.int start) := rfl
  simp only [multiply, start_integer, number?_of_integer? isInteger, Number.combine]

private theorem int_multiply_sequence (repeats : sequence.isSequence = true) (start : Int) :
    (int start).multiply sequence =
      if isWord start then .ok (sequence.times start.toNat) else .error .countTooLarge := by
  have noSequence : (int start).isSequence = false := rfl
  have flipped : (int start).multiply sequence = sequence.repeated (int start) := by
    simp [multiply, number?_of_isSequence repeats, repeats, noSequence]
  rw [flipped, repeated_integer repeats rfl]

/-! ## Multiplying in a row -/

/-- Integers are multiplied before a text or a list turns up. -/
private theorem foldlM_multiply_integers {factors : List Value} {counts : List Int}
    (integers : factors.mapM integer? = some counts) (start : Int) :
    factors.foldlM multiply (int start) = .ok (int (start * counts.foldr (· * ·) 1)) := by
  induction factors generalizing counts start with
  | nil =>
      obtain rfl : counts = [] := by simpa using integers.symm
      simp [pure, Except.pure]
  | cons factor factors ih =>
      simp only [List.mapM_cons, bind, Option.bind_eq_some_iff, pure, Option.some.injEq] at integers
      obtain ⟨count, first, others, behind, rfl⟩ := integers
      rw [List.foldlM_cons, multiply_integers first, List.foldr_cons, ← Int.mul_assoc]
      exact ih behind (start * count)

/-- Behind a text or a list each integer counts by itself. -/
private theorem foldlM_multiply_sequence {behind : List Value} {counts : List Int}
    (integers : behind.mapM integer? = some counts) {sequence : Value}
    (repeats : sequence.isSequence = true) :
    behind.foldlM multiply sequence =
      if ∀ count ∈ counts, isWord count = true then
        .ok (sequence.times ((counts.map Int.toNat).foldr (· * ·) 1))
      else .error .countTooLarge := by
  induction behind generalizing counts sequence with
  | nil =>
      obtain rfl : counts = [] := by simpa using integers.symm
      simp [times_one, pure, Except.pure]
  | cons factor behind ih =>
      simp only [List.mapM_cons, bind, Option.bind_eq_some_iff, pure, Option.some.injEq] at integers
      obtain ⟨count, first, others, later, rfl⟩ := integers
      rw [List.foldlM_cons, multiply_of_isSequence repeats, repeated_integer repeats first]
      cases word : isWord count with
      | false => simp [word, bind, Except.bind]
      | true =>
          have rest := ih later ((isSequence_times count.toNat sequence).trans repeats)
          simp only [bind, Except.bind, if_true, rest, times_times, List.forall_mem_cons, word,
            true_and, List.map_cons, List.foldr_cons]

end Value

namespace Builtin

/-- A product that meets a text or a list comes to a repetition of it, or fails on the integers
before it. -/
private theorem product_append {factors behind : List Value} {sequence : Value} {counts : List Int}
    (before : factors.mapM Value.integer? = some counts) (repeats : sequence.isSequence = true) :
    product (factors ++ sequence :: behind) =
      if Value.isWord (counts.foldr (· * ·) 1) then
        behind.foldlM Value.multiply (sequence.times (counts.foldr (· * ·) 1).toNat)
      else .error .countTooLarge := by
  rw [product, List.foldlM_append, Value.foldlM_multiply_integers before, Int.one_mul]
  simp only [bind, Except.bind, List.foldlM_cons, Value.int_multiply_sequence repeats]
  cases Value.isWord (counts.foldr (· * ·) 1) with
  | false => rfl
  | true => rfl

private theorem product_of_integers {factors behind : List Value} {sequence : Value}
    {counts times : List Int} (before : factors.mapM Value.integer? = some counts)
    (repeats : sequence.isSequence = true) (integers : behind.mapM Value.integer? = some times) :
    product (factors ++ sequence :: behind) =
      if Value.isWord (counts.foldr (· * ·) 1) = true ∧ ∀ count ∈ times, Value.isWord count = true
      then .ok (sequence.times
        ((counts.foldr (· * ·) 1).toNat * (times.map Int.toNat).foldr (· * ·) 1))
      else .error .countTooLarge := by
  rw [product_append before repeats]
  cases word : Value.isWord (counts.foldr (· * ·) 1) with
  | false => simp
  | true =>
      have same := Value.isSequence_times (counts.foldr (· * ·) 1).toNat sequence
      have repeats' := same.trans repeats
      simp only [Value.foldlM_multiply_sequence integers repeats', Value.times_times, if_true,
        true_and]

private theorem product_of_other {factors integers others : List Value} {sequence value : Value}
    {counts times : List Int} (before : factors.mapM Value.integer? = some counts)
    (repeats : sequence.isSequence = true) (behind : integers.mapM Value.integer? = some times)
    (other : value.integer? = none) (word : Value.isWord (counts.foldr (· * ·) 1) = true)
    (words : ∀ count ∈ times, Value.isWord count = true) :
    product (factors ++ sequence :: (integers ++ value :: others)) =
      .error (.repeatCount value.typeName) := by
  have repeats' (count : Nat) : (sequence.times count).isSequence = true :=
    (Value.isSequence_times count sequence).trans repeats
  rw [product_append before repeats, if_pos word, List.foldlM_append,
    Value.foldlM_multiply_sequence behind (repeats' _), if_pos words, Value.times_times]
  simp only [bind, Except.bind, List.foldlM_cons, Value.multiply_of_isSequence (repeats' _),
    Value.repeated_other other]

/-- It matters on which side of a text or a list two negative factors stand. -/
private theorem product_ne_of_negative {sequence : Value} (repeats : sequence.isSequence = true)
    (filled : sequence.truthy = true) :
    product [.int (-1), .int (-1), sequence] ≠ product [.int (-1), sequence, .int (-1)] := by
  have left : product [.int (-1), .int (-1), sequence] = .ok (sequence.times 1) :=
    @product_of_integers [.int (-1), .int (-1)] [] sequence [-1, -1] [] rfl repeats rfl
  have right : product [.int (-1), sequence, .int (-1)] = .ok (sequence.times 0) :=
    @product_of_integers [.int (-1)] [.int (-1)] sequence [-1] [-1] rfl repeats rfl
  rw [left, right, Value.times_one]
  cases sequence <;> simp_all [Value.isSequence, Value.times, Value.truthy]

end Builtin

/-- A product of integers, a text or list, and integers behind it repeats the text or list: as often
as the product of the integers before it says, and as often again as each of the others says. The
former product and each of the latter have to fit a machine word. What is no integer behind it is
an error of its own, if nothing before is one. -/
theorem product_with_sequence {factors : List Value} {sequence : Value} {counts : List Int}
    (before : factors.mapM Value.integer? = some counts) (repeats : sequence.isSequence = true) :
    let first := counts.foldr (· * ·) 1
    let words (times : List Int) : Prop :=
      Value.isWord first = true ∧ ∀ count ∈ times, Value.isWord count = true
    (∀ behind times, behind.mapM Value.integer? = some times →
      (words times → Builtin.product (factors ++ sequence :: behind) =
        .ok (sequence.times (first.toNat * (times.map Int.toNat).foldr (· * ·) 1))) ∧
      (¬ words times → ∃ error, Builtin.product (factors ++ sequence :: behind) = .error error ∧
        error.kind = .overflow)) ∧
    (∀ integers value others times, integers.mapM Value.integer? = some times →
      value.integer? = none → words times →
      ∃ error, Builtin.product (factors ++ sequence :: (integers ++ value :: others)) =
          .error error ∧
        error.kind = .type ∧
        error.message =
          "can't multiply sequence by non-int of type '" ++ value.typeName ++ "'") ∧
    (sequence.truthy = true →
      Builtin.product [.int (-1), .int (-1), sequence] ≠
        Builtin.product [.int (-1), sequence, .int (-1)]) := by
  intro first words
  refine ⟨?_, ?_, Builtin.product_ne_of_negative repeats⟩
  · intro behind times integers
    have product := Builtin.product_of_integers before repeats integers
    constructor
    · intro fits
      exact product.trans (if_pos fits)
    · intro tooLarge
      exact ⟨.countTooLarge, product.trans (if_neg tooLarge), rfl⟩
  · intro integers value others times behind other fits
    exact ⟨.repeatCount value.typeName,
      Builtin.product_of_other before repeats behind other fits.1 fits.2, rfl, rfl⟩

theorem product_with_sequence_text :
    Builtin.product [.int 2, .bool true, .text "ab", .int 3, .int 1] =
        .ok (.text "abababababab") ∧
      (∃ error, Builtin.product [.int 2, .bool true, .text "ab", .int 0x8000000000000000] =
          .error error ∧
        error.kind = .overflow) ∧
      ∃ error, Builtin.product [.int 2, .bool true, .text "ab", .int (-1), .nothing, .text "c"] =
          .error error ∧
        error.message = "can't multiply sequence by non-int of type 'NoneType'" := by
  obtain ⟨integers, other, -⟩ :=
    @product_with_sequence [.int 2, .bool true] (.text "ab") [2, 1] rfl rfl
  refine ⟨?_, ?_, ?_⟩
  · exact (integers [.int 3, .int 1] [3, 1] rfl).1 (by decide)
  · exact (integers [.int 0x8000000000000000] [0x8000000000000000] rfl).2 (by decide)
  · obtain ⟨error, failed, -, message⟩ :=
      other [.int (-1)] .nothing [.text "c"] [-1] rfl rfl (by decide)
    exact ⟨error, failed, message⟩

end IndentLisp
