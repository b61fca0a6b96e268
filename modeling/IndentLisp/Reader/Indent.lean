import IndentLisp.Reader.State

/-!
# Indentation

The level of a line is the number of tabs it starts with. The checks below compare it with the
level of the current block. They move between blocks one level at a time and read nothing: the
tabs are skipped as white space when the line itself is read.
-/

set_option autoImplicit false

namespace IndentLisp.Reader.State

/-- The number of tabs at the start of the unread text, unless a space follows them. -/
def tabs? (state : State) : Option Nat :=
  match state.rest.dropWhile (· == '\t') with
  | ' ' :: _ => none
  | _ => some (state.rest.takeWhile (· == '\t')).length

/-- The number of tabs at the start of the unread text; a space after them is a failure. -/
def countTabs (state : State) : Reply Nat :=
  match state.tabs? with
  | some count => .found count state
  | none => state.refuse .spacesInIndent

/-- Opens a block if this line is one level deeper than the current block. -/
def indent (state : State) : Reply Unit :=
  state.countTabs.bind fun count state =>
    if (count : Int) = state.level + 1 then .found () { state with level := state.level + 1 }
    else .absent state

/-- Closes one block if this line is less deep than the current block. -/
def dedent (state : State) : Reply Unit :=
  state.countTabs.bind fun count state =>
    if (count : Int) < state.level then .found () { state with level := state.level - 1 }
    else .absent state

/-- Stays in the current block if this line is as deep as it. -/
def nodent (state : State) : Reply Unit :=
  state.countTabs.bind fun count state =>
    if (count : Int) = state.level then .found () state else .absent state

end IndentLisp.Reader.State
