import IndentLisp.Builtin.Error
import IndentLisp.Decimal.FloatText

/-!
# Printed values

The text that printing gives a value. It is put together from the inside, from left to right, and
there is none where an integer has too many digits or the stack does not hold the lists around an
item.
-/

set_option autoImplicit false

namespace IndentLisp.Value

/-- The printed text of a floating-point number: a whole one is written as an integer. -/
def floatText (value : Float) : String :=
  match Binary64.toInt? value with
  | some whole => Numeral.text whole
  | none => Binary64.text value

mutual

/-- The printed text of a value, with room for so many lists around one another. The text of a
function is given. -/
def toText (functionText : Value → String) (room : Nat) : Value → Except CallError String
  | nothing => .ok ""
  | bool value => .ok (if value then "true" else "false")
  | int value => if Numeral.fits value then .ok (Numeral.text value) else .error .numeralTooLong
  | float value => .ok (floatText value)
  | text value => .ok value
  | list items =>
    match room with
    | 0 => .error .stackOverflow
    | inner + 1 => do return ",".intercalate (← texts functionText inner items)
  | function => .ok (functionText function)

/-- The printed texts of several values, unless one has none. -/
def texts (functionText : Value → String) (room : Nat) :
    List Value → Except CallError (List String)
  | [] => .ok []
  | item :: items => do
    let first ← item.toText functionText room
    let others ← texts functionText room items
    return first :: others

end

end IndentLisp.Value
