import IndentLisp.Builtin.Call
import IndentLisp.Evaluation.Events

/-!
# Outcomes of the builtin functions

Which values the builtin functions make, and in which ways they fail, of arguments that the named
builtin functions themselves can have made. Floating-point numbers come from division alone.
-/

set_option autoImplicit false

namespace IndentLisp

variable {named : Builtin → Prop} {height : Nat}

/-! ## Values that programs make -/

/-- A value that a program of the given height can make with the named builtin functions and none of
the embedding program. -/
inductive Value.Made (named : Builtin → Prop) : Nat → Value → Prop where
  | nothing {height : Nat} : Made named height .nothing
  | bool {height : Nat} (value : Bool) : Made named height (.bool value)
  | int {height : Nat} (value : Int) : Made named height (.int value)
  | float {height : Nat} (value : Float) : named .divide → Made named height (.float value)
  | text {height : Nat} (value : String) : Made named height (.text value)
  | list {height : Nat} {items : List Value} :
      (∀ item ∈ items, Made named height item) → Made named (height + 1) (.list items)
  | builtin {height : Nat} {function : Builtin} :
      named function → Made named height (.builtin function)

theorem Value.Made.mono {value : Value} (made : value.Made named height) {height' : Nat}
    (higher : height ≤ height') : value.Made named height' := by
  induction made generalizing height' with
  | list _ ih =>
      cases height' with
      | zero => cases higher
      | succ inner =>
          exact .list fun item member => ih item member (Nat.le_of_succ_le_succ higher)
  | nothing => exact .nothing
  | bool value => exact .bool value
  | int value => exact .int value
  | float value divides => exact .float value divides
  | text value => exact .text value
  | builtin isNamed => exact .builtin isNamed

theorem Value.nestingOf_le {values : List Value}
    (each : ∀ value ∈ values, value.nesting ≤ height) : nestingOf values ≤ height := by
  induction values with
  | nil => exact Nat.zero_le height
  | cons value values ih =>
      obtain ⟨first, others⟩ := List.forall_mem_cons.mp each
      exact Nat.max_le.mpr ⟨first, ih others⟩

/-- The lists in a value are nested no deeper than the program that makes it. -/
theorem Value.Made.nesting_le {value : Value} (made : value.Made named height) :
    value.nesting ≤ height := by
  induction made with
  | list _ ih => exact Nat.succ_le_succ (Value.nestingOf_le ih)
  | nothing | bool | int | float | text | builtin => exact Nat.zero_le _

theorem Value.anyFloat_eq_false {values : List Value}
    (none : ∀ value ∈ values, value.hasFloat = false) : Value.anyFloat values = false := by
  induction values with
  | nil => rfl
  | cons value values ih =>
      obtain ⟨first, others⟩ := List.forall_mem_cons.mp none
      rw [anyFloat, first, ih others, Bool.or_false]

/-- Without division no floating-point numbers are made. -/
theorem Value.Made.hasFloat_eq_false {value : Value} (made : value.Made named height)
    (undivided : ¬ named .divide) : value.hasFloat = false := by
  induction made with
  | float value divides => exact absurd divides undivided
  | list _ ih => exact Value.anyFloat_eq_false ih
  | nothing | bool | int | text | builtin => rfl

/-! ## Texts -/

/-- Why values cannot be printed with room for so many lists around one another. -/
inductive Value.Unprintable (room : Nat) (values : List Value) : CallError → Prop where
  | numeralTooLong {number : Int} : number ∈ integersOf values → Numeral.fits number = false →
      Unprintable room values .numeralTooLong
  | stackOverflow : room < nestingOf values → Unprintable room values .stackOverflow

namespace Value.Unprintable

variable {room : Nat} {value : Value} {values : List Value} {error : CallError}

private theorem head (unprintable : Unprintable room [value] error) :
    Unprintable room (value :: values) error := by
  cases unprintable with
  | numeralTooLong member long =>
      have inside := (List.mem_append.mp member).resolve_right List.not_mem_nil
      exact .numeralTooLong (List.mem_append_left _ inside) long
  | stackOverflow deep =>
      rw [nestingOf, nestingOf, Nat.max_zero] at deep
      exact .stackOverflow (Nat.lt_of_lt_of_le deep (Nat.le_max_left _ _))

private theorem tail (unprintable : Unprintable room values error) :
    Unprintable room (value :: values) error := by
  cases unprintable with
  | numeralTooLong member long => exact .numeralTooLong (List.mem_append_right _ member) long
  | stackOverflow deep => exact .stackOverflow (Nat.lt_of_lt_of_le deep (Nat.le_max_right _ _))

private theorem list (unprintable : Unprintable room values error) :
    Unprintable (room + 1) [.list values] error := by
  cases unprintable with
  | numeralTooLong member long => exact .numeralTooLong (List.mem_append_left [] member) long
  | stackOverflow deep =>
      exact .stackOverflow (Nat.lt_of_lt_of_le (Nat.succ_lt_succ deep) (Nat.le_max_left _ _))

end Value.Unprintable

section

variable {functionText : Value → String} {error : CallError}

mutual

private theorem Value.unprintable_of_toText (value : Value) {room : Nat}
    (failed : value.toText functionText room = .error error) :
    Value.Unprintable room [value] error := by
  cases value with
  | int number =>
      rw [toText] at failed
      split at failed
      · cases failed
      · next long =>
        cases failed
        exact .numeralTooLong (List.mem_singleton.mpr rfl) (Bool.eq_false_iff.mpr long)
  | list items =>
      cases room with
      | zero =>
          cases failed
          exact .stackOverflow (Nat.lt_of_lt_of_le (Nat.succ_pos _) (Nat.le_max_left _ _))
      | succ inner =>
          cases inside : texts functionText inner items with
          | ok => simp [toText, inside, bind, Except.bind, pure, Except.pure] at failed
          | error reason =>
              rw [toText, inside] at failed
              cases failed
              exact (Value.unprintable_of_texts items inside).list
  | nothing | bool | float | text | builtin | host => cases failed

theorem Value.unprintable_of_texts (values : List Value) {room : Nat}
    (failed : Value.texts functionText room values = .error error) :
    Value.Unprintable room values error := by
  cases values with
  | nil => cases failed
  | cons value values =>
      cases first : value.toText functionText room with
      | error reason =>
          rw [texts, first] at failed
          cases failed
          exact (Value.unprintable_of_toText value first).head
      | ok text =>
          cases others : texts functionText room values with
          | error reason =>
              rw [texts, first, others] at failed
              cases failed
              exact (Value.unprintable_of_texts values others).tail
          | ok =>
              rw [texts, first, others] at failed
              cases failed

end

end

/-! ## Errors of calls -/

/-- An error that a builtin function can end in, if only the named functions have been used.
Printing can end in two more. -/
def CallError.Made (named : Builtin → Prop) : CallError → Prop
  | operands .. | repeatCount _ | nothingToSubtract | divideArguments _ | divisionByZero
  | floatDivisionByZero => True
  | intTooLarge | quotientTooLarge => named .divide
  | countTooLarge => named .multiply
  | numeralTooLong | stackOverflow | host .. => False

/-- The outcome of an operation: a value or an error of those kinds. -/
def Comes (named : Builtin → Prop) (height : Nat) : Except CallError Value → Prop
  | .ok value => value.Made named height
  | .error error => error.Made named

/-! ## Numbers -/

/-- A number is a floating-point one only after division. -/
def Number.Made (named : Builtin → Prop) : Number → Prop
  | int _ => True
  | float _ => named .divide

private theorem Number.made_of_number? {value : Value} {number : Number}
    (made : value.Made named height)
    (isNumber : value.number? = some number) : number.Made named := by
  cases made <;> cases isNumber
  · exact trivial
  · exact trivial
  · assumption

/-- With division at hand, it does not matter which operands are floating-point numbers. -/
private theorem Number.comes_toFloat (divides : named .divide) (number : Number)
    {next : Float → Except CallError Value} (further : ∀ value, Comes named height (next value)) :
    Comes named height (number.toFloat >>= next) := by
  cases number with
  | float value => exact further value
  | int value =>
      simp only [toFloat]
      cases Binary64.ofInt? value with
      | none => exact divides
      | some rounded => exact further rounded

private theorem Number.comes_combine (onInts : Int → Int → Int) (onFloats : Float → Float → Float)
    {left right : Number} (made : left.Made named) (made' : right.Made named) :
    Comes named height (combine onInts onFloats left right) := by
  have mixed (divides : named .divide) :
      Comes named height (left.toFloat >>= fun left => right.toFloat >>= fun right =>
        .ok (.float (onFloats left right))) :=
    left.comes_toFloat divides fun _ => right.comes_toFloat divides fun _ => .float _ divides
  cases left with
  | float => exact mixed made
  | int =>
      cases right with
      | float => exact mixed made'
      | int => exact .int _

private theorem Number.comes_quotient (divides : named .divide) (left right : Number) :
    Comes named height (quotient left right) := by
  have mixed : Comes named height (left.toFloat >>= fun left => right.toFloat >>= fun right =>
      if right == 0 then .error .floatDivisionByZero else .ok (.float (left / right))) := by
    refine left.comes_toFloat divides fun dividend => right.comes_toFloat divides fun divisor => ?_
    split
    · exact trivial
    · exact .float _ divides
  cases left with
  | float => exact mixed
  | int dividend =>
      cases right with
      | float => exact mixed
      | int divisor =>
          simp only [quotient]
          split
          · exact trivial
          · cases Binary64.ofQuotient? dividend divisor with
            | none => exact divides
            | some rounded => exact .float _ divides

/-! ## Operators -/

namespace Value

variable {left right : Value}

private theorem comes_numbers {operation : Number → Number → Except CallError Value}
    {error : CallError} (onNumbers : ∀ {left right : Number}, left.Made named → right.Made named →
      Comes named height (operation left right))
    (otherwise : error.Made named) (made : left.Made named height)
    (made' : right.Made named height) :
    Comes named height
      (match left.number?, right.number? with
      | some left, some right => operation left right
      | _, _ => .error error) := by
  cases isNumber : left.number? with
  | none => exact otherwise
  | some number =>
      cases isNumber' : right.number? with
      | none => exact otherwise
      | some number' =>
          exact onNumbers (Number.made_of_number? made isNumber)
            (Number.made_of_number? made' isNumber')

private theorem comes_add (made : left.Made named height) (made' : right.Made named height) :
    Comes named height (left.add right) :=
  comes_numbers (Number.comes_combine _ _) trivial made made'

private theorem comes_subtract (made : left.Made named height) (made' : right.Made named height) :
    Comes named height (left.subtract right) :=
  comes_numbers (Number.comes_combine _ _) trivial made made'

private theorem comes_divide (divides : named .divide) (made : left.Made named height)
    (made' : right.Made named height) : Comes named height (left.divide right) :=
  comes_numbers (fun _ _ => Number.comes_quotient divides _ _) trivial made made'

private theorem mem_of_mem_repeatList {α : Type} {count : Nat} {items : List α} {item : α}
    (member : item ∈ repeatList count items) : item ∈ items := by
  unfold repeatList at member
  split at member
  · cases member
  · obtain ⟨copy, copies, inside⟩ := List.mem_flatten.mp member
    rwa [List.eq_of_mem_replicate copies] at inside

private theorem comes_repeated {sequence : Value} (multiplies : named .multiply)
    (made : sequence.Made named height) (count : Value) :
    Comes named height (sequence.repeated count) := by
  unfold repeated
  split
  · split
    · exact multiplies
    · split
      · exact .text _
      · next items =>
        cases made with
        | list each => exact .list fun item member => each item (mem_of_mem_repeatList member)
      · exact made
  · exact trivial

private theorem comes_multiply (multiplies : named .multiply) (made : left.Made named height)
    (made' : right.Made named height) : Comes named height (left.multiply right) := by
  unfold multiply
  split
  · next isNumber isNumber' =>
    exact Number.comes_combine _ _ (Number.made_of_number? made isNumber)
      (Number.made_of_number? made' isNumber')
  · split
    · exact comes_repeated multiplies made right
    · split
      · exact comes_repeated multiplies made' left
      · exact trivial

end Value

/-! ## Builtin functions -/

namespace Builtin

variable {arguments : List Value}

private theorem comes_foldlM {operation : Value → Value → Except CallError Value}
    (each : ∀ {left right : Value}, left.Made named height → right.Made named height →
      Comes named height (operation left right))
    (made : ∀ argument ∈ arguments, argument.Made named height) {start : Value}
    (begins : start.Made named height) : Comes named height (arguments.foldlM operation start) := by
  induction arguments generalizing start with
  | nil => exact begins
  | cons argument arguments ih =>
      obtain ⟨first, others⟩ := List.forall_mem_cons.mp made
      have step := each begins first
      rw [List.foldlM_cons]
      cases result : operation start argument with
      | error error =>
          rw [result] at step
          exact step
      | ok next =>
          rw [result] at step
          exact ih others step

private theorem comes_difference (made : ∀ argument ∈ arguments, argument.Made named height) :
    Comes named height (difference arguments) := by
  cases arguments with
  | nil => exact trivial
  | cons first others =>
      obtain ⟨begins, made⟩ := List.forall_mem_cons.mp made
      exact comes_foldlM Value.comes_subtract made begins

private theorem comes_quotient (divides : named .divide)
    (made : ∀ argument ∈ arguments, argument.Made named height) :
    Comes named height (quotient arguments) := by
  unfold quotient
  split
  · next dividend divisor =>
    obtain ⟨first, others⟩ := List.forall_mem_cons.mp made
    exact Value.comes_divide divides first (List.forall_mem_singleton.mp others)
  · exact trivial

/-- The outcome of a builtin function. Printing fails only on what cannot be printed. -/
theorem comes_call (functionText : Value → String) (room : Nat) {function : Builtin}
    (isNamed : named function) (made : ∀ argument ∈ arguments, argument.Made named height) :
    match function.call functionText room arguments with
    | .ok (value, _) => value.Made named height
    | .error error =>
      error.Made named ∨ function = .print ∧ Value.Unprintable room arguments error := by
  have silent {outcome : Except CallError Value} (comes : Comes named height outcome) :
      match outcome.map fun value => (value, "") with
      | .ok (value, _) => value.Made named height
      | .error error =>
        error.Made named ∨ function = .print ∧ Value.Unprintable room arguments error := by
    cases outcome with
    | ok value => exact comes
    | error error => exact .inl comes
  cases function with
  | print =>
      rw [call, printed]
      cases inside : Value.texts functionText room arguments with
      | ok texts => exact .text _
      | error error => exact .inr ⟨rfl, Value.unprintable_of_texts arguments inside⟩
  | add => exact silent (comes_foldlM Value.comes_add made (.int 0))
  | subtract => exact silent (comes_difference made)
  | multiply => exact silent (comes_foldlM (Value.comes_multiply isNamed) made (.int 1))
  | divide => exact silent (comes_quotient isNamed made)

end Builtin

end IndentLisp
