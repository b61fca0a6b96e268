import IndentLisp.Builtin.Arithmetic
import IndentLisp.Builtin.Printing

/-!
# The builtin functions

Each takes any number of arguments and gives a value and the text that the call writes. Only
printing writes, and only after the text of all its arguments is known.
-/

set_option autoImplicit false

namespace IndentLisp.Builtin

def sum (arguments : List Value) : Except CallError Value := arguments.foldlM Value.add (.int 0)

def product (arguments : List Value) : Except CallError Value :=
  arguments.foldlM Value.multiply (.int 1)

/-- The first argument less all others. -/
def difference : List Value → Except CallError Value
  | [] => .error .nothingToSubtract
  | first :: others => others.foldlM Value.subtract first

def quotient : List Value → Except CallError Value
  | [dividend, divisor] => dividend.divide divisor
  | arguments => .error (.divideArguments arguments.length)

/-- The texts of all arguments in a row. -/
def printed (functionText : Value → String) (room : Nat) (arguments : List Value) :
    Except CallError String :=
  (Value.texts functionText room arguments).map String.join

/-- Calls a builtin function: its value, and what it writes. What the stack holds and the texts of
functions matter for printing alone. -/
def call (functionText : Value → String) (room : Nat) :
    Builtin → List Value → Except CallError (Value × String)
  | print, arguments => (printed functionText room arguments).map fun text => (.text text, text)
  | add, arguments => (sum arguments).map fun value => (value, "")
  | subtract, arguments => (difference arguments).map fun value => (value, "")
  | multiply, arguments => (product arguments).map fun value => (value, "")
  | divide, arguments => (quotient arguments).map fun value => (value, "")

end IndentLisp.Builtin
