import IndentLisp.Text.Lines

/-!
# Lines with content

The lines of a text without their line ends, and the first of them that is not blank.
-/

set_option autoImplicit false

namespace IndentLisp

/-- The lines of a text, one more than it has line ends. -/
def splitLines : List Char → List (List Char)
  | [] => [[]]
  | '\r' :: '\n' :: rest => [] :: splitLines rest
  | c :: rest =>
    if isLineBreak c then [] :: splitLines rest else (splitLines rest).modifyHead (c :: ·)

/-- Whether a line is more than white space and a comment. -/
def hasContent (line : List Char) : Bool :=
  match line.dropWhile isSpace with
  | [] | ';' :: _ => false
  | _ => true

/-- Whether a line starts with tabs, and no space follows them. -/
def isIndented (line : List Char) : Bool :=
  line.head? == some '\t' && (line.dropWhile (· == '\t')).head? != some ' '

/-- The first line with content, with its number; the first of the lines has the given number. -/
def firstContent? (number : Int) : List (List Char) → Option (Int × List Char)
  | [] => none
  | line :: lines =>
    if hasContent line then some (number, line) else firstContent? (number + 1) lines

example : firstContent? 1 (splitLines [' ', ';', 'a', '\r', '\n', '\t', 'f', '\n']) =
    some (2, ['\t', 'f']) := by decide

end IndentLisp
