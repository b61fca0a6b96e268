import IndentLisp.Node.Preorder
import IndentLisp.Proofs.Node.WellFormed

/-!
# The nodes of well-formed trees

All nodes of a well-formed tree are of kinds that have a meaning, and its symbols are names.
-/

set_option autoImplicit false

namespace IndentLisp.Node

/-- A node such as a text can have. What is below it may be anything. -/
def Readable : Node → Prop
  | symbol name _ => isSymbolName name.toList = true
  | unknown .. => False
  | _ => True

mutual

private theorem readable_of_isItem (node : Node) (valid : node.isItem = true) :
    ∀ other ∈ node.preorder, other.Readable := by
  cases node with
  | block | unknown => cases valid
  | number | string => exact List.forall_mem_singleton.mpr trivial
  | symbol name => exact List.forall_mem_singleton.mpr valid
  | array items => exact List.forall_mem_cons.mpr ⟨trivial, readable_of_allItems items valid⟩
  | expression head tail lineForm =>
      obtain ⟨-, -, validHead, validTail⟩ := isItem_expression_iff.mp valid
      exact List.forall_mem_cons.mpr ⟨trivial, List.forall_mem_append.mpr
        ⟨readable_of_isItem head validHead, readable_of_allItems tail validTail⟩⟩

private theorem readable_of_allItems (nodes : List Node) (valid : allItems nodes = true) :
    ∀ other ∈ preorderList nodes, other.Readable := by
  cases nodes with
  | nil => exact nofun
  | cons node nodes =>
      obtain ⟨first, others⟩ := allItems_cons_iff.mp valid
      exact List.forall_mem_append.mpr
        ⟨readable_of_isItem node first, readable_of_allItems nodes others⟩

end

mutual

private theorem readable_of_allLines (nodes : List Node) (valid : allLines nodes = true) :
    ∀ other ∈ preorderList nodes, other.Readable := by
  cases nodes with
  | nil => exact nofun
  | cons node nodes =>
      obtain ⟨first, others⟩ := allLines_cons_iff.mp valid
      refine List.forall_mem_append.mpr ⟨?_, readable_of_allLines nodes others⟩
      cases node with
      | block | symbol | number | string | array | unknown => cases first
      | expression head tail lineForm line =>
          obtain ⟨-, -, validHead, validTail⟩ := isLine_expression_iff.mp first
          exact List.forall_mem_cons.mpr ⟨trivial, List.forall_mem_append.mpr
            ⟨readable_of_isItem head validHead, readable_of_isLineTail tail validTail⟩⟩

private theorem readable_of_isLineTail (tail : List Node) (valid : isLineTail tail = true) :
    ∀ other ∈ preorderList tail, other.Readable := by
  cases tail with
  | nil => exact nofun
  | cons node nodes =>
      cases node with
      | block children line =>
          obtain ⟨rfl, -, validChildren⟩ := isLineTail_block_iff.mp valid
          have below := readable_of_allLines children validChildren
          exact List.forall_mem_append.mpr ⟨List.forall_mem_cons.mpr ⟨trivial, below⟩, nofun⟩
      | expression | symbol | number | string | array | unknown =>
          obtain ⟨first, others⟩ := (isLineTail_cons_iff rfl).mp valid
          exact List.forall_mem_append.mpr
            ⟨readable_of_isItem _ first, readable_of_isLineTail nodes others⟩

end

theorem readable_of_isProgram {tree : Node} (valid : tree.isProgram = true) :
    ∀ node ∈ tree.preorder, node.Readable := by
  cases tree with
  | block children =>
      exact List.forall_mem_cons.mpr ⟨trivial, readable_of_allLines children valid⟩
  | expression | symbol | number | string | array | unknown => cases valid

end IndentLisp.Node
