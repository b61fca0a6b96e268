import IndentLisp.Reader.State

/-!
# White space, comments and line ends

A comment runs from a semicolon to the end of its line. A line that holds no more than white space
and a comment is blank. Skipping never fails.
-/

set_option autoImplicit false

namespace IndentLisp.Reader

/-- A text without the comment it starts with, if any. The line break after the comment stays. -/
def dropComment : List Char → List Char
  | ';' :: rest => rest.dropWhile (fun c => !isLineBreak c)
  | rest => rest

theorem length_dropComment_le (text : List Char) : (dropComment text).length ≤ text.length := by
  unfold dropComment
  split
  · exact Nat.le_succ_of_le (List.dropWhile_suffix _).length_le
  · exact Nat.le_refl _

namespace State

def skipSpace (state : State) : State := { state with rest := state.rest.dropWhile isSpace }

/-- Skips the comment that starts here, up to the end of its line. -/
def skipComment (state : State) : State := { state with rest := dropComment state.rest }

/-- Goes to the next line, if only a comment stands between here and the line end. -/
def endLine? (state : State) : Option State :=
  (dropLineEnd? (dropComment state.rest)).map fun rest =>
    { state with rest := rest, line := state.line + 1 }

theorem length_skipSpace_le (state : State) : state.skipSpace.rest.length ≤ state.rest.length :=
  (List.dropWhile_suffix _).length_le

theorem length_lt_of_endLine? {state next : State} (ended : state.endLine? = some next) :
    next.rest.length < state.rest.length := by
  obtain ⟨rest, dropped, rfl⟩ := Option.map_eq_some_iff.mp ended
  exact Nat.lt_of_lt_of_le (length_lt_of_dropLineEnd? dropped) (length_dropComment_le _)

/-- Skips all blank lines and stops at the start of a line with content, or at the end of the
text. -/
def skipBlankLines (state : State) : State :=
  match _ended : state.skipSpace.endLine? with
  | some next => next.skipBlankLines
  | none => state
termination_by state.rest.length
decreasing_by exact Nat.lt_of_lt_of_le (length_lt_of_endLine? _ended) (length_skipSpace_le state)

/-- Skips what may stand between two items in brackets: white space, comments and line ends. -/
def skipGap (state : State) : State := state.skipBlankLines.skipSpace

end State

end IndentLisp.Reader
