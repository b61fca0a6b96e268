import IndentLisp.Node
import IndentLisp.Text.Lines
import IndentLisp.Text.Numeral
import IndentLisp.Text.Quoted

/-!
# Tokens

The tokens of a tree, in the order in which they are written, and the tokens of a text. The lexer of
texts knows nothing of heads, arguments and indentation: it knows white space, comments, line ends
and string literals. Closing brackets are no tokens.
-/

set_option autoImplicit false

namespace IndentLisp

inductive Token where
  | symbol (name : String)
  | number (value : Int)
  | string (text : String)
  | openBracket
  | openParenthesis
  deriving DecidableEq, Repr

namespace Node

mutual

/-- The tokens of a tree with their lines. -/
def tokens : Node → List (Token × Int)
  | block children _ => tokensList children
  | expression head tail lineForm line =>
    (if lineForm then [] else [(.openParenthesis, line)]) ++ head.tokens ++ tokensList tail
  | symbol name line => [(.symbol name, line)]
  | number value line => [(.number value, line)]
  | string text line => [(.string text, line)]
  | array items line => (.openBracket, line) :: tokensList items
  | unknown .. => []

def tokensList : List Node → List (Token × Int)
  | [] => []
  | node :: nodes => node.tokens ++ tokensList nodes

end

end Node

namespace Lexer

/-- Divides the text behind the opening apostrophe of a literal into what stands inside the literal
and what follows its closing apostrophe. -/
def spanLiteral : List Char → List Char × List Char
  | [] => ([], [])
  | '\'' :: rest => ([], rest)
  | '\\' :: c :: rest => ('\\' :: c :: (spanLiteral rest).1, (spanLiteral rest).2)
  | c :: rest => (c :: (spanLiteral rest).1, (spanLiteral rest).2)

/-- The text that the inside of a literal denotes. -/
def denoted : List Char → List Char
  | '\\' :: c :: rest => (Quoted.unescape? c).getD c :: denoted rest
  | c :: rest => c :: denoted rest
  | [] => []

/-- What follows a literal is no longer than what stood behind its opening apostrophe. -/
theorem length_spanLiteral_le (text : List Char) : (spanLiteral text).2.length ≤ text.length := by
  fun_induction spanLiteral text <;> simp only [List.length_cons, List.length_nil] <;> omega

/-- The tokens of a text that starts on the given line, with their lines. -/
def tokens (line : Int) (text : List Char) : List (Token × Int) :=
  match text with
  | [] => []
  | '\r' :: '\n' :: rest => tokens (line + 1) rest
  | ';' :: rest => tokens line (rest.dropWhile fun c => !isLineBreak c)
  | '\'' :: rest =>
    let inside := (spanLiteral rest).1
    (.string (String.ofList (denoted inside)), line)
      :: tokens (line + lineEnds inside) (spanLiteral rest).2
  | '[' :: rest => (.openBracket, line) :: tokens line rest
  | '(' :: rest => (.openParenthesis, line) :: tokens line rest
  | c :: rest =>
    if isLineBreak c then tokens (line + 1) rest
    else if endsSymbol c then tokens line rest
    else if c.isDigit then
      (.number (Numeral.ofDigits (c :: rest.takeWhile Char.isDigit)), line)
        :: tokens line (rest.dropWhile Char.isDigit)
    else
      (.symbol (String.ofList (c :: rest.takeWhile fun c => !endsSymbol c)), line)
        :: tokens line (rest.dropWhile fun c => !endsSymbol c)
termination_by text.length
decreasing_by
  · simp only [List.length_cons]; omega
  · exact Nat.lt_succ_of_le (List.dropWhile_suffix _).length_le
  · exact Nat.lt_succ_of_le (length_spanLiteral_le _)
  · simp
  · simp
  · simp
  · simp
  · exact Nat.lt_succ_of_le (List.dropWhile_suffix _).length_le
  · exact Nat.lt_succ_of_le (List.dropWhile_suffix _).length_le

end Lexer

end IndentLisp
