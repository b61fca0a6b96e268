import IndentLisp.Node

/-!
# Outlines

The outline of a program lists its lines from top to bottom, each with its depth and without its
body. A program is determined by its outline, up to the lines of its blocks.
-/

set_option autoImplicit false

namespace IndentLisp.Node

/-- The arguments of a line without its body. -/
def withoutBody (tail : List Node) : List Node := tail.filter fun node => !node.isBlock

mutual

/-- The outline of a line at the given depth. -/
def outline (depth : Nat) : Node → List (Nat × Node)
  | expression head tail lineForm line =>
    (depth, expression head (withoutBody tail) lineForm line) :: outlineBodies (depth + 1) tail
  | _ => []

/-- The outlines of the blocks among the arguments of a line. -/
def outlineBodies (depth : Nat) : List Node → List (Nat × Node)
  | [] => []
  | block children _ :: nodes => outlineLines depth children ++ outlineBodies depth nodes
  | _ :: nodes => outlineBodies depth nodes

/-- The outlines of the lines of a block, one after the other. -/
def outlineLines (depth : Nat) : List Node → List (Nat × Node)
  | [] => []
  | node :: nodes => node.outline depth ++ outlineLines depth nodes

end

end IndentLisp.Node
