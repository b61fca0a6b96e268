import IndentLisp.Node.Lines
import IndentLisp.Node.Measure
import IndentLisp.Node.WellFormed

/-!
# What does not depend on lines

Moving a tree to other lines changes neither how deep its blocks and brackets are nested nor whether
it can be the head of an expression.
-/

set_option autoImplicit false

namespace IndentLisp.Node

theorem mapLines_block (lines : Int → Int) (children : List Node) (line : Int) :
    (block children line).mapLines lines = block (children.map (mapLines lines)) (lines line) := by
  rw [mapLines, mapLayout, mapLayoutList_eq_map]
  rfl

theorem mapLines_expression (lines : Int → Int) (head : Node) (tail : List Node) (lineForm : Bool)
    (line : Int) :
    (expression head tail lineForm line).mapLines lines =
      expression (head.mapLines lines) (tail.map (mapLines lines)) lineForm (lines line) := by
  rw [mapLines, mapLayout, mapLayoutList_eq_map]
  rfl

theorem mapLines_array (lines : Int → Int) (items : List Node) (line : Int) :
    (array items line).mapLines lines = array (items.map (mapLines lines)) (lines line) := by
  rw [mapLines, mapLayout, mapLayoutList_eq_map]
  rfl

mutual

private theorem mapLayout_id (node : Node) : node.mapLayout id id = node := by
  cases node with
  | block children | array children => simp [mapLayout, mapLayoutList_id children]
  | expression head tail => simp [mapLayout, mapLayout_id head, mapLayoutList_id tail]
  | symbol | number | string | unknown => rfl

private theorem mapLayoutList_id (nodes : List Node) : mapLayoutList id id nodes = nodes := by
  cases nodes with
  | nil => rfl
  | cons node nodes => simp [mapLayoutList, mapLayout_id node, mapLayoutList_id nodes]

end

theorem mapLines_id (node : Node) : node.mapLines id = node := mapLayout_id node

@[simp] theorem canLead_mapLines (lines : Int → Int) (node : Node) :
    (node.mapLines lines).canLead = node.canLead := by
  cases node <;> rfl

mutual

private theorem nesting_mapLayout_id (lines : Int → Int) (node : Node) :
    (node.mapLayout lines id).nesting = node.nesting := by
  cases node with
  | block children =>
      have sameEmpty : (mapLayoutList lines id children).isEmpty = children.isEmpty := by
        cases children <;> rfl
      rw [mapLayout, nesting, nestingList_mapLayoutList_id lines children, sameEmpty, nesting]
  | array items => simp [mapLayout, nesting, nestingList_mapLayoutList_id]
  | expression head tail =>
      simp [mapLayout, nesting, nesting_mapLayout_id, nestingList_mapLayoutList_id]
  | symbol | number | string | unknown => rfl

private theorem nestingList_mapLayoutList_id (lines : Int → Int) (nodes : List Node) :
    nestingList (mapLayoutList lines id nodes) = nestingList nodes := by
  cases nodes with
  | nil => rfl
  | cons node nodes =>
      simp [mapLayoutList, nestingList, nesting_mapLayout_id, nestingList_mapLayoutList_id]

end

@[simp] theorem nesting_mapLines (lines : Int → Int) (node : Node) :
    (node.mapLines lines).nesting = node.nesting :=
  nesting_mapLayout_id lines node

@[simp] theorem nestingList_map_mapLines (lines : Int → Int) (nodes : List Node) :
    nestingList (nodes.map (mapLines lines)) = nestingList nodes := by
  have same := nestingList_mapLayoutList_id lines nodes
  rw [mapLayoutList_eq_map] at same
  exact same

end IndentLisp.Node
