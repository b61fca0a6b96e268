import IndentLisp.Layout
import IndentLisp.Node.Outline
import IndentLisp.Proofs.Node.Lines
import IndentLisp.Proofs.Node.WellFormed

/-!
# Renumbered programs

A renumbered program is the same program up to its lines. Its line expressions stand on the lines
one, two, three and so on, in the order of its outline, and its blocks begin where their first lines
do. Its written form is the same, since the written form does not depend on lines.
-/

set_option autoImplicit false

namespace IndentLisp.Node

/-! ## The same program up to lines -/

private theorem onLine_onLine (line line' : Int) (node : Node) :
    (node.onLine line).onLine line' = node.onLine line' :=
  mapLayout_mapLayout _ _ id id node

private theorem onLine_block (line line' : Int) (children : List Node) :
    (block children line).onLine line' = block (children.map (onLine line')) line' :=
  mapLines_block _ children line

private theorem onLine_array (line line' : Int) (items : List Node) :
    (array items line).onLine line' = array (items.map (onLine line')) line' :=
  mapLines_array _ items line

private theorem onLine_expression (head : Node) (tail : List Node) (lineForm : Bool)
    (line line' : Int) :
    (expression head tail lineForm line).onLine line' =
      expression (head.onLine line') (tail.map (onLine line')) lineForm line' :=
  mapLines_expression _ head tail lineForm line

mutual

private theorem onLine_renumberLine (node : Node) (line line' : Int) :
    (node.renumberLine line).1.onLine line' = node.onLine line' := by
  cases node with
  | expression head tail lineForm =>
      simp only [renumberLine, onLine_expression, onLine_onLine, map_onLine_renumberTail tail]
  | block | symbol | number | string | array | unknown => exact onLine_onLine line line' _

private theorem map_onLine_renumberTail (tail : List Node) (line line' : Int) :
    (renumberTail line tail).1.map (onLine line') = tail.map (onLine line') := by
  cases tail with
  | nil => rfl
  | cons node nodes =>
      cases node with
      | block children =>
          simp only [renumberTail, List.map_cons, onLine_block, map_onLine_renumberLines children]
      | expression | symbol | number | string | array | unknown =>
          simp only [renumberTail, List.map_cons, onLine_onLine, map_onLine_renumberTail nodes]

private theorem map_onLine_renumberLines (nodes : List Node) (line line' : Int) :
    (renumberLines line nodes).1.map (onLine line') = nodes.map (onLine line') := by
  cases nodes with
  | nil => rfl
  | cons node nodes =>
      simp only [renumberLines, List.map_cons, onLine_renumberLine node,
        map_onLine_renumberLines nodes]

end

theorem onLine_renumber (node : Node) (line : Int) :
    node.renumber.onLine line = node.onLine line := by
  cases node with
  | block children =>
      cases children with
      | nil => rfl
      | cons child children =>
          simp only [renumber, onLine_block, map_onLine_renumberLines]
  | expression | symbol | number | string | array | unknown => rfl

/-! ## The lines of the outline -/

/-- The entries of an outline, each on the line below the one before. -/
def numbered (line : Int) : List (Nat × Node) → List (Nat × Node)
  | [] => []
  | (depth, node) :: entries => (depth, node.onLine line) :: numbered (line + 1) entries

private theorem numbered_append (line : Int) (left right : List (Nat × Node)) :
    numbered line (left ++ right) = numbered line left ++ numbered (line + left.length) right := by
  induction left generalizing line with
  | nil => simp [numbered]
  | cons entry left ih =>
      have later : line + 1 + left.length = line + (left.length + 1 : Nat) := by omega
      rw [List.cons_append, numbered, ih, later]
      rfl

def programOutline : Node → List (Nat × Node)
  | block children _ => outlineLines 0 children
  | _ => []

private theorem isBlock_onLine (line : Int) (node : Node) :
    (node.onLine line).isBlock = node.isBlock := by
  cases node <;> rfl

private theorem withoutBody_cons_item {node : Node} (item : node.isBlock = false)
    (nodes : List Node) :
    withoutBody (node :: nodes) = node :: withoutBody nodes := by
  simp [withoutBody, item]

theorem renumberTail_cons_item {node : Node} (item : node.isBlock = false) (line : Int)
    (nodes : List Node) :
    renumberTail line (node :: nodes) =
      (node.onLine line :: (renumberTail line nodes).1, (renumberTail line nodes).2) := by
  cases node with
  | block => cases item
  | expression | symbol | number | string | array | unknown => rfl

private theorem withoutBody_renumberTail {tail : List Node} (valid : isLineTail tail = true)
    (line : Int) :
    withoutBody (renumberTail line tail).1 = (withoutBody tail).map (onLine line) := by
  induction tail with
  | nil => rfl
  | cons node nodes ih =>
      cases block : node.isBlock with
      | true =>
          cases node with
          | block children =>
              obtain ⟨rfl, -, -⟩ := isLineTail_block_iff.mp valid
              rfl
          | expression | symbol | number | string | array | unknown => cases block
      | false =>
          have others := ((isLineTail_cons_iff block).mp valid).2
          have moved := (isBlock_onLine line node).trans block
          rw [renumberTail_cons_item block, withoutBody_cons_item block,
            withoutBody_cons_item moved, ih others, List.map_cons]

mutual

/-- The renumbered lines of a block stand one below the other, and end below the last of them. -/
private theorem outlineLines_renumberLines (nodes : List Node) (valid : allLines nodes = true)
    (depth : Nat) (line : Int) :
    outlineLines depth (renumberLines line nodes).1 = numbered line (outlineLines depth nodes) ∧
      (renumberLines line nodes).2 = line + (outlineLines depth nodes).length := by
  cases nodes with
  | nil => exact ⟨rfl, (Int.add_zero line).symm⟩
  | cons node nodes =>
      obtain ⟨first, others⟩ := allLines_cons_iff.mp valid
      cases node with
      | block | symbol | number | string | array | unknown => cases first
      | expression head tail lineForm old =>
          obtain ⟨-, -, -, validTail⟩ := isLine_expression_iff.mp first
          obtain ⟨bodies, below⟩ := outlineBodies_renumberTail tail validTail (depth + 1) line
          obtain ⟨rest, last⟩ :=
            outlineLines_renumberLines nodes others depth (renumberTail line tail).2
          simp only [renumberLines, renumberLine, outlineLines, outline, List.cons_append]
          constructor
          · rw [bodies, rest, withoutBody_renumberTail validTail, numbered, onLine_expression,
              numbered_append, below]
          · rw [last, below, List.length_cons, List.length_append]
            omega

private theorem outlineBodies_renumberTail (tail : List Node) (valid : isLineTail tail = true)
    (depth : Nat) (line : Int) :
    outlineBodies depth (renumberTail line tail).1 =
        numbered (line + 1) (outlineBodies depth tail) ∧
      (renumberTail line tail).2 = line + 1 + (outlineBodies depth tail).length := by
  cases tail with
  | nil => exact ⟨rfl, (Int.add_zero _).symm⟩
  | cons node nodes =>
      cases node with
      | block children =>
          obtain ⟨rfl, -, validChildren⟩ := isLineTail_block_iff.mp valid
          obtain ⟨lines, last⟩ := outlineLines_renumberLines children validChildren depth (line + 1)
          simp only [renumberTail, outlineBodies, List.append_nil]
          exact ⟨lines, last⟩
      | expression | symbol | number | string | array | unknown =>
          have others := ((isLineTail_cons_iff rfl).mp valid).2
          exact outlineBodies_renumberTail nodes others depth line

end

theorem programOutline_renumber {tree : Node} (valid : tree.isProgram = true) :
    tree.renumber.programOutline = numbered 1 tree.programOutline := by
  cases tree with
  | expression | symbol | number | string | array | unknown => cases valid
  | block children =>
      cases children with
      | nil => rfl
      | cons child children => exact (outlineLines_renumberLines _ valid 0 1).1

/-! ## Where blocks begin -/

mutual

/-- Every block of a tree that is not empty begins on the line of its first child. -/
def blocksAligned : Node → Prop
  | block children line =>
    (∀ first ∈ children.head?, first.line = line) ∧ allBlocksAligned children
  | expression head tail _ _ => head.blocksAligned ∧ allBlocksAligned tail
  | array items _ => allBlocksAligned items
  | symbol .. | number .. | string .. | unknown .. => True

def allBlocksAligned : List Node → Prop
  | [] => True
  | node :: nodes => node.blocksAligned ∧ allBlocksAligned nodes

end

private theorem line_onLine (line : Int) (node : Node) : (node.onLine line).line = line := by
  cases node <;> rfl

private theorem line_renumberLine (line : Int) (node : Node) :
    (node.renumberLine line).1.line = line := by
  cases node with
  | expression => rfl
  | block | symbol | number | string | array | unknown => rfl

mutual

private theorem blocksAligned_onLine (node : Node) (line : Int) :
    (node.onLine line).blocksAligned := by
  cases node with
  | symbol | number | string | unknown => trivial
  | array items =>
      rw [onLine_array]
      exact allBlocksAligned_onLine items line
  | expression head tail =>
      rw [onLine_expression]
      exact ⟨blocksAligned_onLine head line, allBlocksAligned_onLine tail line⟩
  | block children =>
      rw [onLine_block]
      refine ⟨?_, allBlocksAligned_onLine children line⟩
      intro first found
      rw [List.head?_map] at found
      obtain ⟨child, -, rfl⟩ := Option.map_eq_some_iff.mp found
      exact line_onLine line child

private theorem allBlocksAligned_onLine (nodes : List Node) (line : Int) :
    allBlocksAligned (nodes.map (onLine line)) := by
  cases nodes with
  | nil => trivial
  | cons node nodes => exact ⟨blocksAligned_onLine node line, allBlocksAligned_onLine nodes line⟩

end

private theorem head?_renumberLines (line : Int) (nodes : List Node) :
    ∀ first ∈ (renumberLines line nodes).1.head?, first.line = line := by
  intro first found
  cases nodes with
  | nil => cases found
  | cons node nodes =>
      cases found
      exact line_renumberLine line node

mutual

private theorem allBlocksAligned_renumberLines (nodes : List Node) (valid : allLines nodes = true)
    (line : Int) : allBlocksAligned (renumberLines line nodes).1 := by
  cases nodes with
  | nil => trivial
  | cons node nodes =>
      obtain ⟨first, others⟩ := allLines_cons_iff.mp valid
      cases node with
      | block | symbol | number | string | array | unknown => cases first
      | expression head tail lineForm old =>
          obtain ⟨-, -, -, validTail⟩ := isLine_expression_iff.mp first
          exact ⟨⟨blocksAligned_onLine head line,
            allBlocksAligned_renumberTail tail validTail line⟩,
              allBlocksAligned_renumberLines nodes others _⟩

private theorem allBlocksAligned_renumberTail (tail : List Node) (valid : isLineTail tail = true)
    (line : Int) : allBlocksAligned (renumberTail line tail).1 := by
  cases tail with
  | nil => trivial
  | cons node nodes =>
      cases node with
      | block children =>
          obtain ⟨rfl, -, validChildren⟩ := isLineTail_block_iff.mp valid
          exact ⟨⟨head?_renumberLines (line + 1) children,
            allBlocksAligned_renumberLines children validChildren (line + 1)⟩, trivial⟩
      | expression | symbol | number | string | array | unknown =>
          have others := ((isLineTail_cons_iff rfl).mp valid).2
          exact ⟨blocksAligned_onLine _ line, allBlocksAligned_renumberTail nodes others line⟩

end

theorem blocksAligned_renumber {tree : Node} (valid : tree.isProgram = true) :
    tree.renumber.blocksAligned := by
  cases tree with
  | expression | symbol | number | string | array | unknown => cases valid
  | block children =>
      cases children with
      | nil => exact ⟨nofun, trivial⟩
      | cons child children =>
          exact ⟨head?_renumberLines 1 _, allBlocksAligned_renumberLines _ valid 1⟩

/-! ## The written form -/

mutual

private theorem layout_onLine (node : Node) (line : Int) (blocks : Nat) :
    (node.onLine line).layout blocks = node.layout blocks := by
  cases node with
  | symbol | number | string | unknown => rfl
  | array items => rw [onLine_array, layout, layout, layoutItems_onLine items]
  | block children => rw [onLine_block, layout, layout, layoutLines_onLine children]
  | expression head tail lineForm =>
      rw [onLine_expression]
      cases lineForm <;>
        rw [layout, layout, layout_onLine head, layoutTail_onLine tail]

private theorem layoutLines_onLine (nodes : List Node) (line : Int) (blocks : Nat) :
    layoutLines blocks (nodes.map (onLine line)) = layoutLines blocks nodes := by
  cases nodes with
  | nil => rfl
  | cons node nodes =>
      cases nodes with
      | nil => exact layout_onLine node line blocks
      | cons next nodes =>
          have others := layoutLines_onLine (next :: nodes) line blocks
          simp only [List.map_cons, layoutLines, layout_onLine node] at others ⊢
          rw [others]

private theorem layoutTail_onLine (nodes : List Node) (line : Int) (blocks : Nat) :
    layoutTail blocks (nodes.map (onLine line)) = layoutTail blocks nodes := by
  cases nodes with
  | nil => rfl
  | cons node nodes =>
      rw [List.map_cons, layoutTail, layoutTail, isBlock_onLine, layout_onLine node,
        layoutTail_onLine nodes]

private theorem layoutItems_onLine (nodes : List Node) (line : Int) (blocks : Nat) :
    layoutItems blocks (nodes.map (onLine line)) = layoutItems blocks nodes := by
  cases nodes with
  | nil => rfl
  | cons node nodes =>
      cases nodes with
      | nil => exact layout_onLine node line blocks
      | cons next nodes =>
          have others := layoutItems_onLine (next :: nodes) line blocks
          simp only [List.map_cons, layoutItems, layout_onLine node] at others ⊢
          rw [others]

end

mutual

private theorem fault?_onLine (node : Node) (line : Int) :
    (node.onLine line).fault? = node.fault? := by
  cases node with
  | symbol | number | string | unknown => rfl
  | array items => rw [onLine_array, fault?, fault?, listFault?_onLine items]
  | block children => rw [onLine_block, fault?, fault?, listFault?_onLine children]
  | expression head tail =>
      rw [onLine_expression, fault?, fault?, fault?_onLine head, listFault?_onLine tail]

private theorem listFault?_onLine (nodes : List Node) (line : Int) :
    listFault? (nodes.map (onLine line)) = listFault? nodes := by
  cases nodes with
  | nil => rfl
  | cons node nodes =>
      rw [List.map_cons, listFault?, listFault?, fault?_onLine node, listFault?_onLine nodes]

end

private theorem format_onLine (node : Node) (line : Int) :
    (node.onLine line).format = node.format := by
  rw [format, format, fault?_onLine, layout_onLine]

/-- Trees that are the same up to lines have the same written form. -/
theorem format_eq_of_onLine_eq {left right : Node} {line : Int}
    (same : left.onLine line = right.onLine line) : left.format = right.format := by
  rw [← format_onLine left line, same, format_onLine]

end IndentLisp.Node
