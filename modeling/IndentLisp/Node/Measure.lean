import IndentLisp.Node

/-!
# Measures of trees

The number of nodes of a tree is what a full evaluation costs, its height is how deep evaluation
goes, and its nesting is how deep the blocks and brackets of its written form are nested.
-/

set_option autoImplicit false

namespace IndentLisp.Node

mutual

/-- The number of nodes of a tree. -/
def size : Node → Nat
  | block children _ => sizeList children + 1
  | expression head tail _ _ => head.size + sizeList tail + 1
  | array items _ => sizeList items + 1
  | symbol .. | number .. | string .. | unknown .. => 1

def sizeList : List Node → Nat
  | [] => 0
  | node :: nodes => node.size + sizeList nodes

end

mutual

/-- The number of nodes on the longest path from the root of a tree. -/
def height : Node → Nat
  | block children _ => heightList children + 1
  | expression head tail _ _ => max head.height (heightList tail) + 1
  | array items _ => heightList items + 1
  | symbol .. | number .. | string .. | unknown .. => 1

def heightList : List Node → Nat
  | [] => 0
  | node :: nodes => max node.height (heightList nodes)

end

mutual

/-- How deep blocks with lines, arrays and parenthesised expressions are nested in a tree. -/
def nesting : Node → Nat
  | block children _ => nestingList children + if children.isEmpty then 0 else 1
  | expression head tail lineForm _ =>
    max head.nesting (nestingList tail) + if lineForm then 0 else 1
  | array items _ => nestingList items + 1
  | symbol .. | number .. | string .. | unknown .. => 0

def nestingList : List Node → Nat
  | [] => 0
  | node :: nodes => max node.nesting (nestingList nodes)

end

end IndentLisp.Node
