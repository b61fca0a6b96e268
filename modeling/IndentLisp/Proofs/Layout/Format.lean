import IndentLisp.Proofs.Layout.Lines
import IndentLisp.Proofs.Program.Indentation

/-!
# Reading the written form of a program

Every well-formed program has a written form, and what is read from it is the program with the lines
that its parts have there.
-/

set_option autoImplicit false

namespace IndentLisp

open Reader SourceLine

namespace Node

/-! ## Well-formed programs have a written form -/

mutual

private theorem fault?_eq_none_of_isItem (node : Node) (valid : node.isItem = true) :
    node.fault? = none := by
  cases node with
  | block | unknown => cases valid
  | symbol | string => rfl
  | number value => exact if_pos (Bool.and_eq_true_iff.mp valid).2
  | array items => exact listFault?_eq_none_of_allItems items valid
  | expression head tail lineForm =>
      obtain ⟨-, -, validHead, validTail⟩ := isItem_expression_iff.mp valid
      rw [fault?, fault?_eq_none_of_isItem head validHead,
        listFault?_eq_none_of_allItems tail validTail]
      rfl

private theorem listFault?_eq_none_of_allItems (nodes : List Node) (valid : allItems nodes = true) :
    listFault? nodes = none := by
  cases nodes with
  | nil => rfl
  | cons node nodes =>
      obtain ⟨first, others⟩ := allItems_cons_iff.mp valid
      rw [listFault?, fault?_eq_none_of_isItem node first,
        listFault?_eq_none_of_allItems nodes others]
      rfl

end

mutual

private theorem listFault?_eq_none_of_allLines (nodes : List Node) (valid : allLines nodes = true) :
    listFault? nodes = none := by
  cases nodes with
  | nil => rfl
  | cons node nodes =>
      obtain ⟨first, others⟩ := allLines_cons_iff.mp valid
      rw [listFault?, listFault?_eq_none_of_allLines nodes others]
      cases node with
      | block | symbol | number | string | array | unknown => cases first
      | expression head tail lineForm line =>
          obtain ⟨-, -, validHead, validTail⟩ := isLine_expression_iff.mp first
          rw [fault?, fault?_eq_none_of_isItem head validHead,
            listFault?_eq_none_of_isLineTail tail validTail]
          rfl

private theorem listFault?_eq_none_of_isLineTail (tail : List Node)
    (valid : isLineTail tail = true) :
    listFault? tail = none := by
  cases tail with
  | nil => rfl
  | cons node nodes =>
      cases node with
      | block children line =>
          obtain ⟨rfl, -, validChildren⟩ := isLineTail_block_iff.mp valid
          rw [listFault?, fault?, listFault?_eq_none_of_allLines children validChildren]
          rfl
      | expression | symbol | number | string | array | unknown =>
          obtain ⟨first, others⟩ := (isLineTail_cons_iff rfl).mp valid
          rw [listFault?, fault?_eq_none_of_isItem _ first,
            listFault?_eq_none_of_isLineTail nodes others]
          rfl

end

private theorem fault?_eq_none_of_isProgram {tree : Node} (valid : tree.isProgram = true) :
    tree.fault? = none := by
  cases tree with
  | block children => exact listFault?_eq_none_of_allLines children valid
  | expression | symbol | number | string | array | unknown => cases valid

end Node

/-! ## What is read from the written form -/

theorem parse_empty (nesting : Nat) : parse nesting "" = .ok (.block [] 2) := by
  have blank : State.skipBlankLines ⟨['\n'], 1, -1⟩ = ⟨[], 2, -1⟩ := by
    rw [@skipBlankLines_of_endLine? ⟨['\n'], 1, -1⟩ ⟨[], 2, -1⟩ rfl]
    exact skipBlankLines_eq_self rfl
  have read : block nesting ⟨['\n'], 1, -1⟩ = .found ⟨[], 2⟩ ⟨[], 2, -1⟩ := by
    rw [block_eq, blank]
    rfl
  have start : State.start "" = ⟨['\n'], 1, -1⟩ := rfl
  rw [parse, start, program, read]
  rfl

/-- The written form of a well-formed program is read as the renumbered program. -/
theorem parse_format {nesting : Nat} {tree : Node} (valid : tree.isProgram = true)
    (within : tree.nesting ≤ nesting) :
    ∃ text, tree.format = .ok text ∧ parse nesting text = .ok tree.renumber := by
  refine ⟨String.ofList (tree.layout 0), ?_, ?_⟩
  · rw [Node.format, Node.fault?_eq_none_of_isProgram valid]
  cases tree with
  | expression | symbol | number | string | array | unknown => cases valid
  | block children =>
      cases children with
      | nil => exact parse_empty nesting
      | cons child children =>
          obtain ⟨lines, forest, body⟩ :=
            exists_writtenLines (child :: children) valid 0 0
          have text : Node.layoutLines 1 (child :: children) ++ ['\n'] = textOf lines :=
            (Node.layoutLines_concat 1 child children).trans body.written.symm
          have some : lines ≠ [] := by
            intro none
            subst none
            exact List.concat_ne_nil _ _ text
          have start : State.start (String.ofList (Node.layoutLines 1 (child :: children))) =
              State.start (String.ofList (textOf lines)) := by
            rw [start_textOf some, State.start, String.toList_ofList,
              terminated_of_concat some text]
          have fits : Fits nesting lines := by
            intro line member
            have fits := body.fits line member
            have whole : Node.nestingList (child :: children) + 1 ≤ nesting := within
            omega
          have read := parse_of_listed some body.lists.wellIndented fits body.lists.placed.symm
          rw [Node.layout, parse, start, ← parse, read, body.renumbered]
          rfl

end IndentLisp
