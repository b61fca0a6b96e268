import IndentLisp.Builtin.Error
import IndentLisp.Decimal.Binary64

/-!
# Arithmetic

Operations on two values. Truth values count as the integers 0 and 1. Integers are exact; as soon
as one operand is a floating-point number, the other is rounded to one. Multiplication also repeats
texts and lists.
-/

set_option autoImplicit false

namespace IndentLisp

/-- A value seen as a number. -/
inductive Number where
  | int (value : Int)
  | float (value : Float)

/-- The number that a value is, if it is one. -/
def Value.number? : Value → Option Number
  | bool value => some (.int (if value then 1 else 0))
  | int value => some (.int value)
  | float value => some (.float value)
  | _ => none

/-- Whether a value can be repeated. -/
def Value.isSequence : Value → Bool
  | text _ | list _ => true
  | _ => false

namespace Number

/-- The nearest floating-point number. -/
def toFloat : Number → Except CallError Float
  | float value => .ok value
  | int value =>
    match Binary64.ofInt? value with
    | some rounded => .ok rounded
    | none => .error .intTooLarge

/-- Applies an operation to two integers, or its counterpart to two floating-point numbers. -/
def combine (onInts : Int → Int → Int) (onFloats : Float → Float → Float) :
    Number → Number → Except CallError Value
  | int left, int right => .ok (.int (onInts left right))
  | left, right => do return .float (onFloats (← left.toFloat) (← right.toFloat))

/-- The quotient of two numbers, as a floating-point number. That of two integers is rounded
once. -/
def quotient : Number → Number → Except CallError Value
  | int left, int right =>
    if right = 0 then .error .divisionByZero
    else
      match Binary64.ofQuotient? left right with
      | some rounded => .ok (.float rounded)
      | none => .error .quotientTooLarge
  | left, right => do
    let left ← left.toFloat
    let right ← right.toFloat
    if right == 0 then .error .floatDivisionByZero else .ok (.float (left / right))

end Number

def repeatList {α : Type} (count : Nat) (items : List α) : List α :=
  if items.isEmpty then [] else (List.replicate count items).flatten

namespace Value

/-- The error of an operator that has no meaning for two operands. -/
def operandError (operator : String) (left right : Value) : CallError :=
  .operands operator left.typeName right.typeName

/-- Whether an integer fits a machine word of 64 bits with sign. -/
def isWord (value : Int) : Bool := -0x8000000000000000 ≤ value && value < 0x8000000000000000

/-- A text or list repeated by a value that has to be a count; a negative count is as good as
zero. -/
def repeated (sequence count : Value) : Except CallError Value :=
  match count.number? with
  | some (.int times) =>
    if !isWord times then .error .countTooLarge
    else
      match sequence with
      | text value => .ok (.text (String.ofList (repeatList times.toNat value.toList)))
      | list items => .ok (.list (repeatList times.toNat items))
      | other => .ok other
  | _ => .error (.repeatCount count.typeName)

def add (left right : Value) : Except CallError Value :=
  match left.number?, right.number? with
  | some left, some right => Number.combine (· + ·) (· + ·) left right
  | _, _ => .error (operandError "+=" left right)

def subtract (left right : Value) : Except CallError Value :=
  match left.number?, right.number? with
  | some left, some right => Number.combine (· - ·) (· - ·) left right
  | _, _ => .error (operandError "-=" left right)

/-- The product of two values; a text or list is repeated, the left one if both are. -/
def multiply (left right : Value) : Except CallError Value :=
  match left.number?, right.number? with
  | some left, some right => Number.combine (· * ·) (· * ·) left right
  | _, _ =>
    if left.isSequence then left.repeated right
    else if right.isSequence then right.repeated left
    else .error (operandError "*=" left right)

def divide (left right : Value) : Except CallError Value :=
  match left.number?, right.number? with
  | some left, some right => Number.quotient left right
  | _, _ => .error (operandError "/" left right)

end Value

end IndentLisp
