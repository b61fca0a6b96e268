import IndentLisp.Node
import IndentLisp.Text.Numeral
import IndentLisp.Text.Quoted
import IndentLisp.Reader.Space

/-!
# Numbers, strings and symbols

The readers of single tokens. Each finds its token absent exactly when the next character cannot
start one.
-/

set_option autoImplicit false

namespace IndentLisp.Reader

/-- The next character, if a number cannot end before it. -/
def numberObstacle? : List Char → Option Char
  | c :: _ => if endsNumber c then none else some c
  | [] => none

/-- Reads a run of digits as a number. What follows the digits is checked before their count. -/
def readNumber (state : State) : Reply Node :=
  let digits := state.rest.takeWhile Char.isDigit
  let next : State := { state with rest := state.rest.dropWhile Char.isDigit }
  if digits.isEmpty then .absent next
  else
    match numberObstacle? next.rest with
    | some c => next.refuse (.numberRunsInto c)
    | none =>
      if digits.length ≤ Numeral.digitLimit then
        .found (.number (Numeral.ofDigits digits) state.line) next
      else .failed (.numeralTooLong digits.length) next

/-- Reads a string literal after its opening apostrophe. Line breaks belong to the text and are
counted as lines; CR LF is one line break. -/
def readLiteral (level : Int) : List Char → Int → Reply (List Char)
  | [], line => State.refuse ⟨[], line, level⟩ .openString
  | '\'' :: rest, line => .found [] ⟨rest, line, level⟩
  | ['\\'], line => State.refuse ⟨['\\'], line, level⟩ (.badEscape none)
  | '\\' :: c :: rest, line =>
    match Quoted.unescape? c with
    | some denoted => (readLiteral level rest line).map (denoted :: ·)
    | none => State.refuse ⟨'\\' :: c :: rest, line, level⟩ (.badEscape (some c))
  | '\r' :: '\n' :: rest, line =>
    (readLiteral level rest (line + 1)).map fun text => '\r' :: '\n' :: text
  | c :: rest, line =>
    (readLiteral level rest (if isLineBreak c then line + 1 else line)).map (c :: ·)

def readString (state : State) : Reply Node :=
  match state.take? '\'' with
  | none => .absent state
  | some inside =>
    (readLiteral inside.level inside.rest inside.line).map fun text =>
      .string (String.ofList text) state.line

/-- Reads the longest run of characters that can stand in a symbol. -/
def readSymbol (state : State) : Reply Node :=
  let name := state.rest.takeWhile (fun c => !endsSymbol c)
  let next : State := { state with rest := state.rest.dropWhile (fun c => !endsSymbol c) }
  if name.isEmpty then .absent next else .found (.symbol (String.ofList name) state.line) next

end IndentLisp.Reader
