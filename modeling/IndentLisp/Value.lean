/-!
# Values

What programs compute with. Functions are values too: the builtin ones, and those that the embedding
program provides, which are known by their name.
-/

set_option autoImplicit false

namespace IndentLisp

inductive Builtin where
  | print | add | subtract | multiply | divide
  deriving DecidableEq, Repr

inductive Value where
  | nothing
  | bool (value : Bool)
  | int (value : Int)
  | float (value : Float)
  | text (value : String)
  | list (items : List Value)
  | builtin (function : Builtin)
  /-- A function of the embedding program. -/
  | host (name : String)
  deriving Inhabited

/-- The symbol to which a builtin function is bound. -/
def Builtin.symbol : Builtin → String
  | print => "печатать"
  | add => "+"
  | subtract => "-"
  | multiply => "*"
  | divide => "/"

def Builtin.all : List Builtin := [print, add, subtract, multiply, divide]

namespace Value

/-- The name of a value's type, as errors mention it. -/
def typeName : Value → String
  | nothing => "NoneType"
  | bool _ => "bool"
  | int _ => "int"
  | float _ => "float"
  | text _ => "str"
  | list _ => "list"
  | builtin _ | host _ => "function"

mutual

/-- How many lists stand around one another in a value. -/
def nesting : Value → Nat
  | list items => nestingOf items + 1
  | _ => 0

def nestingOf : List Value → Nat
  | [] => 0
  | item :: items => max item.nesting (nestingOf items)

end

/-- Whether a condition holds of a value: nothing, false, zero and what is empty count as false. -/
def truthy : Value → Bool
  | nothing => false
  | bool value => value
  | int value => value != 0
  | float value => value != 0
  | text value => !value.isEmpty
  | list items => !items.isEmpty
  | builtin _ | host _ => true

end Value

end IndentLisp
