import IndentLisp.Reader.Atom

/-!
# Items: atoms, arrays and parenthesised expressions

Inside brackets, line ends and comments are as good as white space. Readers recurse on the nesting
that is left for brackets and blocks, so each bracket reader takes the reader of the items one level
further in.
-/

set_option autoImplicit false

namespace IndentLisp.Reader

/-- Why a node cannot be the head of an expression, if it cannot. -/
def headProblem? : Node → Option Problem
  | .number .. => some .numberHead
  | .string .. => some .stringHead
  | .array .. => some .arrayHead
  | _ => none

/-- Reads an item that has to be a head. One that cannot be is refused after it has been read. -/
def readHead (item : State → Reply Node) (state : State) : Reply Node :=
  (item state).bind fun node next =>
    match headProblem? node with
    | some problem => next.refuse problem
    | none => .found node next

/-- Reads items up to and with the closing bracket. The first number bounds the items still to be
read; an item has at least one character, so the length of the unread text will do. The second
counts the items before this one. -/
def readItems (item : State → Reply Node) (closer : Char) (problem : Nat → Problem) :
    Nat → Nat → State → Reply (List Node)
  | 0, count, state => state.skipGap.refuse (problem count)
  | bound + 1, count, state =>
    match item state.skipGap with
    | .found node next =>
      (readItems item closer problem bound (count + 1) next).map (node :: ·)
    | .failed failure stop => .failed failure stop
    | .absent stop =>
      match stop.take? closer with
      | some next => .found [] next
      | none => stop.refuse (problem count)

def readArray (item : State → Reply Node) (state : State) : Reply Node :=
  match state.take? '[' with
  | none => .absent state
  | some inside =>
    (readItems item ']' .arrayItems inside.rest.length 0 inside).map fun items =>
      .array items state.line

def readParenthesised (item : State → Reply Node) (state : State) : Reply Node :=
  match state.take? '(' with
  | none => .absent state
  | some inside =>
    match readHead item inside.skipGap with
    | .found head next =>
      (readItems item ')' .arguments next.rest.length 0 next).map fun tail =>
        .expression head tail false state.line
    | .absent stop => stop.refuse .noHead
    | .failed failure stop => .failed failure stop

/-- Refuses an opening bracket where no further nesting is allowed. -/
def refuseBracket (state : State) : Reply Node :=
  match state.rest with
  | '[' :: _ | '(' :: _ => state.refuse .tooDeep
  | _ => .absent state

/-- Reads an item whose brackets are nested no deeper than the given number. -/
def readItem : Nat → State → Reply Node
  | 0 => firstOf [readNumber, readString, refuseBracket, readSymbol]
  | nesting + 1 =>
    firstOf [readNumber, readString, readArray (readItem nesting),
      readParenthesised (readItem nesting), readSymbol]

end IndentLisp.Reader
