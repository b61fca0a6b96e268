/-!
# Modes of a text

Whether a place of a text is in a string literal, found by going through the text once from left to
right. Comments end with their line; carriage returns do not count as line ends here.
-/

set_option autoImplicit false

namespace IndentLisp

/-- What the next character of a text belongs to. -/
inductive Mode where
  | code
  | comment
  | literal
  | escape
  deriving DecidableEq, Repr

namespace Mode

def step : Mode → Char → Mode
  | code, c => if c = '\'' then literal else if c = ';' then comment else code
  | comment, c => if c = '\n' then code else comment
  | literal, c => if c = '\'' then code else if c = '\\' then escape else literal
  | escape, _ => literal

def run (mode : Mode) (text : List Char) : Mode := text.foldl step mode

/-- Whether the next character belongs to a literal. -/
def inLiteral : Mode → Bool
  | code | comment => false
  | literal | escape => true

end Mode

/-- Whether a text ends inside a string literal. -/
def endsInLiteral (text : List Char) : Bool := (Mode.code.run text).inLiteral

example : endsInLiteral ['f', ';', '\'', '\n', '\'', '\\', '\''] = true := by decide

end IndentLisp
