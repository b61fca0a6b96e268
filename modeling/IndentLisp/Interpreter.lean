import IndentLisp.Value

/-!
# Interpreters

What programs find where they run: how much the stack holds, and which text stands for a function.
Both belong to a run and not to the program.
-/

set_option autoImplicit false

namespace IndentLisp

structure Interpreter where
  /-- How deep blocks and brackets nest at most, together, in a text that is read. -/
  readingLimit : Nat
  /-- How deep nodes nest at most, together with the lists inside a value that is printed. -/
  evaluationLimit : Nat
  /-- What printing writes for a function, such as its address. -/
  functionText : Value → String

end IndentLisp
