import IndentLisp.Node.Strings

/-!
# Open brackets

The brackets that are open behind a text, found without reading a tree. The scan knows nothing of
lines and heads: it knows comments, string literals, brackets and words. A closing bracket closes
the innermost open one, whichever it is.
-/

set_option autoImplicit false

namespace IndentLisp

/-- An opening bracket that has not been closed, with the number of items that stand whole directly
behind it. -/
structure OpenBracket where
  bracket : Char
  items : Nat
  deriving DecidableEq, Repr

namespace Lexer

/-- One more item stands in the innermost open bracket. Outside brackets items are not counted. -/
def countItem : List OpenBracket → List OpenBracket
  | [] => []
  | ⟨bracket, items⟩ :: outer => ⟨bracket, items + 1⟩ :: outer

/-- The brackets that are open behind the text, innermost first, where the given ones are open
before it. A literal without an end takes up the rest of the text. -/
def bracketsFrom (opened : List OpenBracket) : List Char → List OpenBracket
  | [] => opened
  | ';' :: rest => bracketsFrom opened (rest.dropWhile fun c => !isLineBreak c)
  | '\'' :: rest =>
    match _closed : closeLiteral? rest with
    | some (_, after) => bracketsFrom (countItem opened) after
    | none => opened
  | '[' :: rest => bracketsFrom (⟨'[', 0⟩ :: opened) rest
  | '(' :: rest => bracketsFrom (⟨'(', 0⟩ :: opened) rest
  | ']' :: rest => bracketsFrom (countItem opened.tail) rest
  | ')' :: rest => bracketsFrom (countItem opened.tail) rest
  | c :: rest =>
    if endsSymbol c then bracketsFrom opened rest
    else bracketsFrom (countItem opened) (rest.dropWhile fun c => !endsSymbol c)
termination_by text => text.length
decreasing_by
  · exact Nat.lt_succ_of_le (List.dropWhile_suffix _).length_le
  · exact Nat.lt_succ_of_le (length_closeLiteral?_le _closed)
  · simp
  · simp
  · simp
  · simp
  · simp
  · exact Nat.lt_succ_of_le (List.dropWhile_suffix _).length_le

/-- The brackets that are open behind the text, innermost first. -/
def openBrackets (text : List Char) : List OpenBracket := bracketsFrom [] text

example : openBrackets "f [a 'b]' () (g ; h )".toList = [⟨'(', 1⟩, ⟨'[', 3⟩] := by decide +kernel

end Lexer

end IndentLisp
