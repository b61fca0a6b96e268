import IndentLisp.Text.Numeral
import IndentLisp.Value

/-!
# Failing calls

Why the call of a function fails. Errors of operand types and of division are the caller's: where a
program makes the call, they are reported with the line of the call.
-/

set_option autoImplicit false

namespace IndentLisp

inductive FailureKind where
  | type | zeroDivision | overflow | value | evaluation | recursion
  deriving DecidableEq, Repr

inductive CallError where
  /-- The operator has no meaning for operands of these types. -/
  | operands (operator left right : String)
  /-- A text or list is to be repeated by a value of a type that is not a count. -/
  | repeatCount (typeName : String)
  | nothingToSubtract
  | divideArguments (count : Nat)
  | divisionByZero
  | floatDivisionByZero
  /-- An integer has no nearest floating-point number. -/
  | intTooLarge
  /-- A quotient of integers has no nearest floating-point number. -/
  | quotientTooLarge
  /-- A text or list is to be repeated more often than a machine word can count. -/
  | countTooLarge
  /-- An integer with too many digits is to be printed. -/
  | numeralTooLong
  /-- The lists inside a value that is to be printed are nested too deep for the stack. -/
  | stackOverflow
  /-- A function of the embedding program failed. -/
  | host (kind : FailureKind) (text : String)
  deriving DecidableEq, Repr

namespace CallError

def kind : CallError → FailureKind
  | operands .. | repeatCount _ | nothingToSubtract | divideArguments _ => .type
  | divisionByZero | floatDivisionByZero => .zeroDivision
  | intTooLarge | quotientTooLarge | countTooLarge => .overflow
  | numeralTooLong => .value
  | stackOverflow => .recursion
  | host kind _ => kind

def message : CallError → String
  | operands operator left right =>
    "unsupported operand type(s) for " ++ operator ++ ": '" ++ left ++ "' and '" ++ right ++ "'"
  | repeatCount typeName => "can't multiply sequence by non-int of type '" ++ typeName ++ "'"
  | nothingToSubtract => "'-' expects at least 1 argument"
  | divideArguments count => "'/' expects 2 arguments, got " ++ Numeral.text count
  | divisionByZero => "division by zero"
  | floatDivisionByZero => "float division by zero"
  | intTooLarge => "int too large to convert to float"
  | quotientTooLarge => "integer division result too large for a float"
  | countTooLarge => "cannot fit 'int' into an index-sized integer"
  | numeralTooLong =>
    "Exceeds the limit (4300 digits) for integer string conversion; "
      ++ "use sys.set_int_max_str_digits() to increase the limit"
  | stackOverflow => "maximum recursion depth exceeded"
  | host _ text => text

/-- Whether an error is reported with the line of the call that failed. -/
def located (error : CallError) : Bool :=
  match error.kind with
  | .type | .zeroDivision => true
  | _ => false

end CallError

end IndentLisp
