/-!
# Classes of characters

Which characters separate the parts of a program. All other characters, in any script, are as good
as letters.
-/

set_option autoImplicit false

namespace IndentLisp

/-- White space inside a line. -/
def isSpace (c : Char) : Bool := c == ' ' || c == '\t'

/-- The characters that break a line. -/
def isLineBreak (c : Char) : Bool := c == '\n' || c == '\r'

/-- The characters that may follow a number. -/
def endsNumber (c : Char) : Bool := [' ', ']', ';', ')', '\t', '\r', '\n'].contains c

/-- The characters that cannot stand in a symbol. -/
def endsSymbol (c : Char) : Bool :=
  ['[', '\'', '(', ' ', ']', ';', ')', '\t', '\r', '\n'].contains c

theorem endsSymbol_of_endsNumber {c : Char} (ends : endsNumber c = true) : endsSymbol c = true := by
  simp only [endsNumber, endsSymbol, List.contains_iff_mem, List.mem_cons] at ends ⊢
  grind

end IndentLisp
