import IndentLisp.Layout
import IndentLisp.Parse

/-!
# Writing a program and reading it again

Compares a program with what is read from its written form.
-/

set_option autoImplicit false

namespace IndentLisp

/-- Why a comparison could not be made. -/
inductive RoundTripError where
  | parse (error : ParseError)
  | layout (fault : LayoutFault)
  deriving DecidableEq, Repr

/-- A program's written form and the tree read from it. `equal` says whether that tree is the
program's own, lines included; `stable` says whether it has the same written form. -/
structure RoundTrip where
  text : String
  again : Node
  equal : Bool
  stable : Bool

/-- Reads a program, writes it and reads what was written, with so much nesting. -/
def roundTrip (nesting : Nat) (source : String) : Except RoundTripError RoundTrip := do
  let first ← (parse nesting source).mapError .parse
  let text ← first.format.mapError .layout
  let again ← (parse nesting text).mapError .parse
  let rewritten ← again.format.mapError .layout
  return { text, again, equal := decide (again = first), stable := rewritten == text }

end IndentLisp
