import IndentLisp.Node
import IndentLisp.Text.Alphabet
import IndentLisp.Text.Numeral

/-!
# Well-formed trees

The trees that programs are read into: lines in blocks, items in lines, and only symbols and
parenthesised expressions as heads. These are the trees whose written form can be read again.
-/

set_option autoImplicit false

namespace IndentLisp.Node

/-- Whether a text can stand as a symbol: it is not empty, has none of the characters that end
symbols, and does not start like a number. -/
def isSymbolName (name : List Char) : Bool :=
  match name with
  | [] => false
  | c :: _ => !c.isDigit && name.all fun c => !endsSymbol c

/-- Whether a node is a symbol or a parenthesised expression. -/
def canLead : Node → Bool
  | symbol .. => true
  | expression _ _ lineForm _ => !lineForm
  | _ => false

mutual

/-- Whether a tree can stand among the items of a line. -/
def isItem : Node → Bool
  | symbol name _ => isSymbolName name.toList
  | number value _ => 0 ≤ value && Numeral.fits value
  | string .. => true
  | array items _ => allItems items
  | expression head tail lineForm _ => !lineForm && head.canLead && head.isItem && allItems tail
  | block .. | unknown .. => false

def allItems : List Node → Bool
  | [] => true
  | node :: nodes => node.isItem && allItems nodes

end

mutual

/-- Whether a tree is a line: a head and items, and below them a body that is not empty, if any. -/
def isLine : Node → Bool
  | expression head tail lineForm _ => lineForm && head.canLead && head.isItem && isLineTail tail
  | _ => false

/-- Whether several trees are the arguments of a line, with its body as last of them, if any. -/
def isLineTail : List Node → Bool
  | [] => true
  | block children _ :: nodes => nodes.isEmpty && !children.isEmpty && allLines children
  | node :: nodes => node.isItem && isLineTail nodes

def allLines : List Node → Bool
  | [] => true
  | node :: nodes => node.isLine && allLines nodes

end

/-- Whether a tree is a program: a block of lines. -/
def isProgram : Node → Bool
  | block children _ => allLines children
  | _ => false

end IndentLisp.Node
