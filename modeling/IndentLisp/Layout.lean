import IndentLisp.Node
import IndentLisp.Text.Numeral
import IndentLisp.Text.Quoted

/-!
# Laying out a tree as text

The written form of a tree has one line for each expression in line form, indented by one tab for
each block around it but the outermost. Items are separated by one space, and a block starts on a
line of its own. The layout itself always succeeds; `Node.fault?` says whether a tree has parts that
have no written form, and `Node.format` refuses such trees.
-/

set_option autoImplicit false

namespace IndentLisp

/-- A part of a tree that has no written form. -/
inductive LayoutFault where
  | unknownKind (kind : String)
  | numeralTooLong
  deriving DecidableEq, Repr

def LayoutFault.message : LayoutFault → String
  | unknownKind kind => "Unknown node kind: " ++ kind
  | numeralTooLong =>
    "Exceeds the limit (4300 digits) for integer string conversion; "
      ++ "use sys.set_int_max_str_digits() to increase the limit"

namespace Node

mutual

/-- The first part, in the order of the text, that has no written form. -/
def fault? : Node → Option LayoutFault
  | block children _ => listFault? children
  | expression head tail _ _ => head.fault?.or (listFault? tail)
  | symbol .. | string .. => none
  | number value _ => if Numeral.fits value then none else some .numeralTooLong
  | array items _ => listFault? items
  | unknown kind _ => some (.unknownKind kind)

def listFault? : List Node → Option LayoutFault
  | [] => none
  | node :: nodes => node.fault?.or (listFault? nodes)

end

mutual

/-- The text of a tree inside the given number of blocks. -/
def layout (blocks : Nat) : Node → List Char
  | block children _ => layoutLines (blocks + 1) children
  | expression head tail true _ =>
    List.replicate (blocks - 1) '\t' ++ head.layout blocks ++ layoutTail blocks tail
  | expression head tail false _ =>
    '(' :: head.layout blocks ++ layoutTail blocks tail ++ [')']
  | symbol name _ => name.toList
  | number value _ => Numeral.toText value
  | string text _ => Quoted.quote text
  | array items _ => '[' :: layoutItems blocks items ++ [']']
  | unknown .. => []

/-- The children of a block, one below the other. -/
def layoutLines (blocks : Nat) : List Node → List Char
  | [] => []
  | [node] => node.layout blocks
  | node :: nodes => node.layout blocks ++ '\n' :: layoutLines blocks nodes

/-- What follows a head: each argument behind a space, but a block on a line of its own. -/
def layoutTail (blocks : Nat) : List Node → List Char
  | [] => []
  | node :: nodes =>
    (if node.isBlock then '\n' else ' ') :: node.layout blocks ++ layoutTail blocks nodes

/-- The items of an array, separated by spaces. -/
def layoutItems (blocks : Nat) : List Node → List Char
  | [] => []
  | [node] => node.layout blocks
  | node :: nodes => node.layout blocks ++ ' ' :: layoutItems blocks nodes

end

/-- The written form of a tree, without a line end behind it. -/
def format (node : Node) : Except LayoutFault String :=
  match node.fault? with
  | some fault => .error fault
  | none => .ok (String.ofList (node.layout 0))

end Node

end IndentLisp
