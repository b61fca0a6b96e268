import IndentLisp.Reader.Indent
import IndentLisp.Reader.Item

/-!
# Lines and blocks

A line holds a phrase: a head and its arguments. The lines below it that are one level deeper form
its body, which becomes its last argument. A block with lines takes up as much of the nesting as a
bracket does, and the brackets on its lines and the blocks below them have what is left.
-/

set_option autoImplicit false

namespace IndentLisp.Reader

/-- The head and the arguments that stand on one line. -/
structure Phrase where
  head : Node
  arguments : List Node
  line : Int

structure Body where
  children : List Node
  line : Int
  deriving DecidableEq

def Body.toNode (body : Body) : Node := .block body.children body.line

def Phrase.toNode (phrase : Phrase) : Node :=
  .expression phrase.head phrase.arguments true phrase.line

/-- A phrase with its body as last argument. An empty body is no argument. -/
def Phrase.withBody (phrase : Phrase) (body : Body) : Node :=
  if body.children.isEmpty then phrase.toNode
  else .expression phrase.head (phrase.arguments ++ [body.toNode]) true phrase.line

/-- Reads the arguments on a line up to where no further item starts. The number bounds their
count. -/
def readArguments (item : State → Reply Node) : Nat → State → Reply (List Node)
  | 0, state => .found [] state.skipSpace
  | bound + 1, state =>
    match item state.skipSpace with
    | .found node next => (readArguments item bound next).map (node :: ·)
    | .failed failure stop => .failed failure stop
    | .absent stop => .found [] stop

/-- Reads a phrase, with the white space after it. -/
def readPhrase (item : State → Reply Node) (state : State) : Reply Phrase :=
  (readHead item state).bind fun head next =>
    (readArguments item next.rest.length next).map fun arguments =>
      ⟨head, arguments, state.line⟩

def readLine (item : State → Reply Node) (body : State → Reply Body) (state : State) :
    Reply Node :=
  match readPhrase item state.skipSpace with
  | .failed failure stop => .failed failure stop
  | .absent stop => stop.refuse .malformedLine
  | .found phrase stop =>
    match stop.endLine? with
    | none => stop.refuse .malformedLine
    | some next => (body next).map phrase.withBody

/-- Reads the lines of a block until a line is less deep or the text ends. The number bounds their
count. -/
def readLines (line : State → Reply Node) : Nat → State → Reply (List Node)
  | 0, state => state.refuse .malformedLine
  | bound + 1, state =>
    (line state).bind fun node next =>
      let next := next.skipBlankLines
      if next.atEnd then .found [node] next
      else
        match next.dedent with
        | .found _ outside => .found [node] outside
        | .failed failure stop => .failed failure stop
        | .absent stop =>
          match stop.nodent with
          | .found _ same => (readLines line bound same).map (node :: ·)
          | .failed failure stop => .failed failure stop
          | .absent stop => stop.refuse .excessiveIndent

/-- Reads a block one level deeper than the current one; it is empty if the next line is not. The
number is the nesting that is left for the block, the blocks in it and the brackets on its lines. -/
def block (nesting : Nat) (state : State) : Reply Body :=
  let start := state.skipBlankLines
  if start.atEnd then .found ⟨[], start.line⟩ start
  else
    match start.indent with
    | .failed failure stop => .failed failure stop
    | .absent stop => .found ⟨[], start.line⟩ stop
    | .found _ inside =>
      match nesting with
      | 0 => inside.refuse .tooDeep
      | nesting + 1 =>
        (readLines (readLine (readItem nesting) (block nesting)) inside.rest.length inside).map
          fun children => ⟨children, start.line⟩

end IndentLisp.Reader
