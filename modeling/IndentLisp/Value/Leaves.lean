import IndentLisp.Text.Numeral
import IndentLisp.Value

/-!
# Leaves of values

A list stands for the values inside it that are not lists, from left to right. Its text can be said
of these leaves alone, without the lists between them.
-/

set_option autoImplicit false

namespace IndentLisp.Value

/-- A value with neither floating-point numbers nor functions in it. -/
inductive Plain : Value → Prop where
  | nothing : Plain .nothing
  | bool (value : Bool) : Plain (.bool value)
  | int (value : Int) : Plain (.int value)
  | text (value : String) : Plain (.text value)
  | list {items : List Value} : (∀ item ∈ items, Plain item) → Plain (.list items)

mutual

/-- The leaves of a value, from left to right. An empty list is a leaf. -/
def leaves : Value → List Value
  | list items => if items.isEmpty then [list []] else leavesOf items
  | leaf => [leaf]

def leavesOf : List Value → List Value
  | [] => []
  | item :: items => item.leaves ++ leavesOf items

end

/-- The text of a leaf. An empty list has none, nor has nothing. -/
def leafText : Value → String
  | bool true => "true"
  | bool false => "false"
  | int value => Numeral.text value
  | text value => value
  | _ => ""

/-- The texts of the leaves of a value, separated by commas. -/
def flatText (value : Value) : String := ",".intercalate (value.leaves.map leafText)

example : flatText (.list [.list [], .bool true, .list [.nothing, .int 7]]) = ",true,,7" := by
  decide

end IndentLisp.Value
