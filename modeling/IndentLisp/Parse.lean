import IndentLisp.Node.Lines
import IndentLisp.Reader.Block

/-!
# Parsing a program

A program is one block at the outermost level that takes up the whole text. Blocks and brackets nest
as deep as the stack of the reader allows, together.
-/

set_option autoImplicit false

namespace IndentLisp

namespace Reader

variable (nesting : Nat)

/-- A phrase as it stands on a line with so much nesting left. -/
def phrase : State → Reply Phrase := readPhrase (readItem nesting)

/-- A line of a block, with its body. -/
def line : State → Reply Node := readLine (readItem nesting) (block nesting)

/-- A whole program. A line that the outermost block leaves unread can only be an indented first
line. -/
def program (state : State) : Reply Body :=
  (block nesting state).bind fun body stop =>
    if stop.atEnd then .found body stop else stop.refuse .indentedStart

end Reader

/-- The tree of a source text, or why it has none. The number is the nesting of blocks and brackets
that the stack of the reader holds. A program is never absent: where there is no line to read, it is
an empty block. -/
def parse (nesting : Nat) (source : String) : Except ParseError Node :=
  match Reader.program nesting (.start source) with
  | .found body _ => .ok body.toNode
  | .failed failure stop => .error (failure.atState stop)
  | .absent _ => .ok (Node.block [] 1)

/-- Parsing for a caller who is called back, with a tree or with a diagnostic. What comes back from
the call is the result. An error that is no diagnostic does not reach the caller in this way. -/
def parseWith {m : Type → Type} [Monad m] {α : Type} (nesting : Nat) (source : String)
    (callback : Option Diagnostic → Option Node → m α) : ExceptT ParseError m α :=
  match parse nesting source with
  | .ok tree => .lift (callback none (some tree))
  | .error (.diagnosed diagnostic) => .lift (callback (some diagnostic) none)
  | .error refusal => throw refusal

/-- An outcome of parsing on other lines. -/
def moveLines (lines : Int → Int) : Except ParseError Node → Except ParseError Node
  | .ok tree => .ok (tree.mapLines lines)
  | .error refusal => .error (refusal.mapLine lines)

end IndentLisp
