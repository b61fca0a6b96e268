import IndentLisp.Text.Alphabet

/-!
# Lines of a text

A line ends with CR LF, LF or CR. The text of a program always ends in a line feed.
-/

set_option autoImplicit false

namespace IndentLisp

/-- A text without the line end it starts with, if it starts with one. -/
def dropLineEnd? : List Char → Option (List Char)
  | '\r' :: '\n' :: rest => some rest
  | '\n' :: rest => some rest
  | '\r' :: rest => some rest
  | _ => none

theorem length_lt_of_dropLineEnd? {text rest : List Char}
    (dropped : dropLineEnd? text = some rest) :
    rest.length < text.length := by
  unfold dropLineEnd? at dropped
  split at dropped <;> cases dropped <;> simp only [List.length_cons] <;> omega

/-- The number of line ends in a text. -/
def lineEnds : List Char → Nat
  | '\r' :: '\n' :: rest => lineEnds rest + 1
  | c :: rest => if isLineBreak c then lineEnds rest + 1 else lineEnds rest
  | [] => 0

/-- A text that ends in a line feed: one is added where it is missing. -/
def terminated (text : List Char) : List Char :=
  if text.getLast? = some '\n' then text else text ++ ['\n']

/-- A text in which every line end is a line feed. -/
def withLineFeeds : List Char → List Char
  | '\r' :: '\n' :: rest => '\n' :: withLineFeeds rest
  | '\r' :: rest => '\n' :: withLineFeeds rest
  | c :: rest => c :: withLineFeeds rest
  | [] => []

/-- A text in which every line feed is written as the given line end. -/
def withLineEnds (ending text : List Char) : List Char :=
  text.flatMap fun c => if c = '\n' then ending else [c]

theorem getLast?_terminated (text : List Char) : (terminated text).getLast? = some '\n' := by
  unfold terminated
  split
  · assumption
  · simp

theorem not_mem_withLineFeeds (text : List Char) : '\r' ∉ withLineFeeds text := by
  fun_induction withLineFeeds text with
  | case1 rest ih => simpa using ih
  | case2 rest _ ih => simpa using ih
  | case3 c rest _ notReturn ih => simp only [List.mem_cons, not_or]; exact ⟨by grind, ih⟩
  | case4 => simp

end IndentLisp
