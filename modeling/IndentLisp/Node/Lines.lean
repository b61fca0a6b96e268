import IndentLisp.Node

/-!
# Changing the layout information of trees

Lines and forms say where and how a tree was written. They can be changed without touching what the
tree says: all at once, or to the lines that the written form of a program has.
-/

set_option autoImplicit false

namespace IndentLisp.Node

mutual

/-- A tree with its lines and its forms changed. -/
def mapLayout (lines : Int → Int) (forms : Bool → Bool) : Node → Node
  | block children line => block (mapLayoutList lines forms children) (lines line)
  | expression head tail lineForm line =>
    expression (head.mapLayout lines forms) (mapLayoutList lines forms tail) (forms lineForm)
      (lines line)
  | symbol name line => symbol name (lines line)
  | number value line => number value (lines line)
  | string text line => string text (lines line)
  | array items line => array (mapLayoutList lines forms items) (lines line)
  | unknown kind line => unknown kind (lines line)

def mapLayoutList (lines : Int → Int) (forms : Bool → Bool) : List Node → List Node
  | [] => []
  | node :: nodes => node.mapLayout lines forms :: mapLayoutList lines forms nodes

end

def mapLines (lines : Int → Int) (node : Node) : Node := node.mapLayout lines id

/-- A tree that is moved down by so many lines. -/
def shiftLines (count : Int) (node : Node) : Node := node.mapLines (· + count)

/-- A tree that stands on one line. -/
def onLine (line : Int) (node : Node) : Node := node.mapLines fun _ => line

/-- A tree without its layout information. Two trees with the same bare tree say the same. -/
def bare (node : Node) : Node := node.mapLayout (fun _ => 0) fun _ => false

theorem mapLayoutList_eq_map (lines : Int → Int) (forms : Bool → Bool) (nodes : List Node) :
    mapLayoutList lines forms nodes = nodes.map (mapLayout lines forms) := by
  induction nodes with
  | nil => rfl
  | cons node nodes inductionHypothesis => simp [mapLayoutList, inductionHypothesis]

mutual

/-- Changing layout information twice is changing it once by both changes. -/
theorem mapLayout_mapLayout (lines lines' : Int → Int) (forms forms' : Bool → Bool) :
    (node : Node) →
      (node.mapLayout lines forms).mapLayout lines' forms' =
        node.mapLayout (lines' ∘ lines) (forms' ∘ forms)
  | block children _ => by
    simp [mapLayout, mapLayoutList_mapLayoutList lines lines' forms forms' children]
  | expression head tail _ _ => by
    simp [mapLayout, mapLayout_mapLayout lines lines' forms forms' head,
      mapLayoutList_mapLayoutList lines lines' forms forms' tail]
  | array items _ => by
    simp [mapLayout, mapLayoutList_mapLayoutList lines lines' forms forms' items]
  | symbol .. | number .. | string .. | unknown .. => by simp [mapLayout]

theorem mapLayoutList_mapLayoutList (lines lines' : Int → Int) (forms forms' : Bool → Bool) :
    (nodes : List Node) →
      mapLayoutList lines' forms' (mapLayoutList lines forms nodes) =
        mapLayoutList (lines' ∘ lines) (forms' ∘ forms) nodes
  | [] => rfl
  | node :: nodes => by
    simp [mapLayoutList, mapLayout_mapLayout lines lines' forms forms' node,
      mapLayoutList_mapLayoutList lines lines' forms forms' nodes]

end

/-- What a tree says does not depend on its layout information. -/
theorem bare_mapLayout (lines : Int → Int) (forms : Bool → Bool) (node : Node) :
    (node.mapLayout lines forms).bare = node.bare := by
  simp [bare, mapLayout_mapLayout, Function.comp_def]

/-! ## The lines of the written form

In its written form each line expression stands on a line of its own, in the order of the tree. -/

mutual

/-- A line expression as it is written from the given line on, and the first line below it. -/
def renumberLine (line : Int) : Node → Node × Int
  | expression head tail lineForm _ =>
    let (tail, next) := renumberTail line tail
    (expression (head.onLine line) tail lineForm line, next)
  | node => (node.onLine line, line + 1)

/-- The arguments of a line expression as they are written on the given line, with its body below
it, and the first line below them. -/
def renumberTail (line : Int) : List Node → List Node × Int
  | [] => ([], line + 1)
  | block children _ :: nodes =>
    let (children, next) := renumberLines (line + 1) children
    (block children (line + 1) :: nodes, next)
  | node :: nodes =>
    let (nodes, next) := renumberTail line nodes
    (node.onLine line :: nodes, next)

/-- The lines of a block as they are written from the given line on, and the first line below
them. -/
def renumberLines (line : Int) : List Node → List Node × Int
  | [] => ([], line)
  | node :: nodes =>
    let (node, below) := renumberLine line node
    let (nodes, next) := renumberLines below nodes
    (node :: nodes, next)

end

/-- A program with the lines that are read from its written form. An empty program ends on the line
below its one line end. -/
def renumber : Node → Node
  | block [] _ => block [] 2
  | block children _ => block (renumberLines 1 children).1 1
  | node => node

end IndentLisp.Node
