import IndentLisp.Node

/-!
# The nodes of a tree

All nodes of a tree, each before what is below it, and the lines on which nodes with children should
begin.
-/

set_option autoImplicit false

namespace IndentLisp.Node

mutual

/-- The nodes of a tree, each before its children. -/
def preorder : Node → List Node
  | block children line => block children line :: preorderList children
  | expression head tail lineForm line =>
    expression head tail lineForm line :: (head.preorder ++ preorderList tail)
  | array items line => array items line :: preorderList items
  | symbol name line => [symbol name line]
  | number value line => [number value line]
  | string text line => [string text line]
  | unknown kind line => [unknown kind line]

def preorderList : List Node → List Node
  | [] => []
  | node :: nodes => node.preorder ++ preorderList nodes

end

/-- A line begins where its head does, and a block that is not empty where its first child does. -/
def beginsInside : Node → Prop
  | expression head _ lineForm line => lineForm = true → line = head.line
  | block children line => ∀ first ∈ children.head?, line = first.line
  | _ => True

theorem preorderList_append (left right : List Node) :
    preorderList (left ++ right) = preorderList left ++ preorderList right := by
  induction left with
  | nil => rfl
  | cons node left ih => rw [List.cons_append, preorderList, preorderList, ih, List.append_assoc]

/-- The lines of the nodes of a tree, in the order of the nodes. -/
def lines (node : Node) : List Int := node.preorder.map line

def linesList (nodes : List Node) : List Int := (preorderList nodes).map line

theorem lines_expression (head : Node) (tail : List Node) (lineForm : Bool) (line : Int) :
    (expression head tail lineForm line).lines = line :: (head.lines ++ linesList tail) := by
  rw [lines, preorder, List.map_cons, List.map_append]
  rfl

theorem lines_block (children : List Node) (line : Int) :
    (block children line).lines = line :: linesList children := rfl

@[simp] theorem linesList_nil : linesList [] = [] := rfl

theorem linesList_cons (node : Node) (nodes : List Node) :
    linesList (node :: nodes) = node.lines ++ linesList nodes := by
  rw [linesList, preorderList, List.map_append]
  rfl

theorem linesList_append (left right : List Node) :
    linesList (left ++ right) = linesList left ++ linesList right := by
  rw [linesList, preorderList_append, List.map_append]
  rfl

end IndentLisp.Node
