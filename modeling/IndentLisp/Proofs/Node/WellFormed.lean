import IndentLisp.Node.WellFormed

/-!
# The parts of well-formed trees
-/

set_option autoImplicit false

namespace IndentLisp.Node

theorem isItem_expression_iff {head : Node} {tail : List Node} {lineForm : Bool} {line : Int} :
    (expression head tail lineForm line).isItem = true ↔
      lineForm = false ∧ head.canLead = true ∧ head.isItem = true ∧ allItems tail = true := by
  simp [isItem, and_assoc]

theorem allItems_cons_iff {node : Node} {nodes : List Node} :
    allItems (node :: nodes) = true ↔ node.isItem = true ∧ allItems nodes = true := by
  rw [allItems, Bool.and_eq_true]

theorem exists_nat_of_isItem {value line : Int} (valid : (number value line).isItem = true) :
    ∃ natural : Nat, value = natural ∧ Numeral.fits (natural : Int) = true := by
  rw [isItem, Bool.and_eq_true, decide_eq_true_eq] at valid
  obtain ⟨natural, rfl⟩ := Int.eq_ofNat_of_zero_le valid.1
  exact ⟨natural, rfl, valid.2⟩

theorem not_isBlock_of_isItem {node : Node} (valid : node.isItem = true) :
    node.isBlock = false := by
  cases node with
  | block => cases valid
  | expression | symbol | number | string | array | unknown => rfl

theorem isLine_expression_iff {head : Node} {tail : List Node} {lineForm : Bool} {line : Int} :
    (expression head tail lineForm line).isLine = true ↔
      lineForm = true ∧ head.canLead = true ∧ head.isItem = true ∧ isLineTail tail = true := by
  simp [isLine, and_assoc]

theorem allLines_cons_iff {node : Node} {nodes : List Node} :
    allLines (node :: nodes) = true ↔ node.isLine = true ∧ allLines nodes = true := by
  rw [allLines, Bool.and_eq_true]

theorem isLineTail_block_iff {children nodes : List Node} {line : Int} :
    isLineTail (block children line :: nodes) = true ↔
      nodes = [] ∧ children ≠ [] ∧ allLines children = true := by
  simp [isLineTail, and_assoc]

theorem isLineTail_cons_iff {node : Node} {nodes : List Node} (item : node.isBlock = false) :
    isLineTail (node :: nodes) = true ↔ node.isItem = true ∧ isLineTail nodes = true := by
  cases node with
  | block => cases item
  | expression | symbol | number | string | array | unknown =>
      rw [isLineTail, Bool.and_eq_true]
      exact nofun

end IndentLisp.Node
