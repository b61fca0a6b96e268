import IndentLisp.Node.Tokens

/-!
# Strings

The strings of a tree, what a tree is without them, and the literals of a text. The scan for the
literals passes over everything else, and over a last literal without an end.
-/

set_option autoImplicit false

namespace IndentLisp

/-- The text of a string. -/
def Token.string? : Token → Option String
  | string text => some text
  | _ => none

namespace Node

/-- The texts of the strings of a tree, in the order in which they are written. -/
def strings (node : Node) : List String := node.tokens.filterMap fun token => token.1.string?

mutual

/-- A tree with all its strings empty. -/
def withoutStrings : Node → Node
  | block children line => block (withoutStringsList children) line
  | expression head tail lineForm line =>
    expression head.withoutStrings (withoutStringsList tail) lineForm line
  | symbol name line => symbol name line
  | number value line => number value line
  | string _ line => string "" line
  | array items line => array (withoutStringsList items) line
  | unknown kind line => unknown kind line

def withoutStringsList : List Node → List Node
  | [] => []
  | node :: nodes => node.withoutStrings :: withoutStringsList nodes

end

end Node

namespace Lexer

/-- The text of a string whose literal holds the given characters. -/
def denotedText (inside : List Char) : String := String.ofList (denoted inside)

/-- Divides the text behind the opening apostrophe of a literal into what stands inside the literal
and what follows it, if the literal has an end. -/
def closeLiteral? : List Char → Option (List Char × List Char)
  | [] => none
  | '\'' :: rest => some ([], rest)
  | '\\' :: c :: rest => (closeLiteral? rest).map (Prod.map (['\\', c] ++ ·) id)
  | c :: rest => (closeLiteral? rest).map (Prod.map (c :: ·) id)

theorem length_closeLiteral?_le {text inside after : List Char}
    (closed : closeLiteral? text = some (inside, after)) : after.length ≤ text.length := by
  fun_induction closeLiteral? text generalizing inside after with
  | case1 => cases closed
  | case2 rest =>
    cases closed
    exact Nat.le_succ _
  | case3 c rest ih =>
    obtain ⟨⟨_, _⟩, rest, ⟨⟩⟩ := Option.map_eq_some_iff.mp closed
    exact Nat.le_succ_of_le (Nat.le_succ_of_le (ih rest))
  | case4 c rest _ _ ih =>
    obtain ⟨⟨_, _⟩, rest, ⟨⟩⟩ := Option.map_eq_some_iff.mp closed
    exact Nat.le_succ_of_le (ih rest)

/-- What is written inside the literals of a text, each as it stands there. -/
def literals : List Char → List (List Char)
  | [] => []
  | ';' :: rest => literals (rest.dropWhile fun c => !isLineBreak c)
  | '\'' :: rest =>
    match _closed : closeLiteral? rest with
    | some (inside, after) => inside :: literals after
    | none => []
  | _ :: rest => literals rest
termination_by text => text.length
decreasing_by
  · exact Nat.lt_succ_of_le (List.dropWhile_suffix _).length_le
  · exact Nat.lt_succ_of_le (length_closeLiteral?_le _closed)
  · simp

end Lexer

end IndentLisp
