import IndentLisp.Text.Numeral

/-!
# Diagnostics

Why a source text is refused, and where. The causes are values; their wording is in one place.
-/

set_option autoImplicit false

namespace IndentLisp

/-- What is wrong with a source text. -/
inductive Problem where
  /-- The tabs at the start of a line are followed by a space. -/
  | spacesInIndent
  /-- A line is more than one level deeper than the line above it. -/
  | excessiveIndent
  /-- The first line with content is indented. -/
  | indentedStart
  /-- Blocks and brackets are nested deeper than the stack of the reader allows. -/
  | tooDeep
  /-- The digits of a number run into a character that cannot follow a number. -/
  | numberRunsInto (next : Char)
  | openString
  /-- A backslash in a string literal is followed by a character that it cannot escape. -/
  | badEscape (next : Option Char)
  /-- After so many items an array goes on with neither an item nor its closing bracket. -/
  | arrayItems (count : Nat)
  | noHead
  /-- After so many arguments a parenthesis goes on with neither an item nor its end. -/
  | arguments (count : Nat)
  | numberHead
  | stringHead
  | arrayHead
  /-- A line does not start with a head, or does not end after its arguments. -/
  | malformedLine
  deriving DecidableEq, Repr

def Problem.message : Problem → String
  | spacesInIndent => "Malformed indentation (spaces)."
  | excessiveIndent => "Incorrect indentation (excessive)."
  | indentedStart => "Internal error (bug in a parser)."
  | tooDeep => "Nesting is too deep."
  | numberRunsInto next => "Unexpected character '" ++ next.toString ++ "' in a NUMBER."
  | openString => "STRING has no end."
  | badEscape next =>
    "Unsupported escaping in STRING: '\\" ++ String.ofList next.toList ++ "'"
  | arrayItems count => "Cannot read array items (after " ++ Numeral.text count ++ ")."
  | noHead => "No expression after a character '('."
  | arguments count => "Cannot read expression arguments (after " ++ Numeral.text count ++ ")."
  | numberHead => "NUMBER cannot be a head of any expression."
  | stringHead => "STRING cannot be a head of any expression."
  | arrayHead => "ARRAY cannot be a head of any expression."
  | malformedLine =>
    "Malformed line expression. Probably there are unnecessary ')' or ']' characters."

/-- A problem and the line on which it was found. -/
structure Diagnostic where
  problem : Problem
  line : Int
  deriving DecidableEq, Repr

/-- Why a source text has no tree. A numeral beyond the digit limit is an error of its own: it has
no diagnostic and no line. -/
inductive ParseError where
  | diagnosed (diagnostic : Diagnostic)
  | numeralTooLong (digits : Nat)
  deriving DecidableEq, Repr

/-- A refusal on another line. A numeral beyond the digit limit has no line. -/
def ParseError.mapLine (lines : Int → Int) : ParseError → ParseError
  | diagnosed ⟨problem, line⟩ => diagnosed ⟨problem, lines line⟩
  | numeralTooLong digits => numeralTooLong digits

/-- A refusal where the first so many lines end in a carriage return and not in a line feed. That is
what a refused escape of the line end shows. -/
def ParseError.showReturns (lines : Int) : ParseError → ParseError
  | diagnosed ⟨.badEscape (some '\n'), line⟩ =>
    diagnosed ⟨.badEscape (some (if line ≤ lines then '\r' else '\n')), line⟩
  | refusal => refusal

/-- The wording of a refusal; that of a diagnostic starts with its line. -/
def ParseError.message : ParseError → String
  | diagnosed ⟨problem, line⟩ => "line " ++ Numeral.text line ++ ": " ++ problem.message
  | numeralTooLong digits =>
    "Exceeds the limit (4300 digits) for integer string conversion: value has "
      ++ Numeral.text digits
      ++ " digits; use sys.set_int_max_str_digits() to increase the limit"

end IndentLisp
