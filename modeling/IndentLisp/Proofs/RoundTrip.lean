import IndentLisp.Proofs.Layout.Format
import IndentLisp.Proofs.Node.Renumber
import IndentLisp.Proofs.Program.WellFormed

/-!
# Parsing and writing

Parsing returns well-formed programs, and every well-formed program is returned for its written
form. Reading the written form of a program that was parsed gives the program back, with each line
expression on a line of its own.
-/

set_option autoImplicit false

namespace IndentLisp

open Reader

/-- A program with an array and a body. -/
def bodyProgram : Node :=
  .block [.expression (.symbol "f" 1)
    [.array [.string "x" 1] 1, .block [.expression (.symbol "g" 2) [] true 2] 2] true 1] 1

theorem parse_bodyProgram : parse 2 "f ['x']\n\tg" = .ok bodyProgram := by
  obtain ⟨text, written, read⟩ := @parse_format 2 bodyProgram (by decide) (by decide)
  have format : bodyProgram.format = .ok "f ['x']\n\tg" := rfl
  obtain rfl := Except.ok.inj (format.symm.trans written)
  exact read

/-- What is parsed is a well-formed program within the nesting limit, and every such program is
parsed, up to its lines, from its written form. -/
theorem parse_image (nesting : Nat) :
    (∀ (source : String) (tree : Node), parse nesting source = .ok tree →
      tree.isProgram = true ∧ tree.nesting ≤ nesting) ∧
    (∀ tree : Node, tree.isProgram = true → tree.nesting ≤ nesting →
      ∃ text again, tree.format = .ok text ∧ parse nesting text = .ok again ∧
        again.onLine 0 = tree.onLine 0) := by
  constructor
  · intro source tree parsed
    exact isProgram_of_parse parsed
  · intro tree valid within
    obtain ⟨text, written, read⟩ := parse_format valid within
    exact ⟨text, tree.renumber, written, read, tree.onLine_renumber 0⟩

theorem parse_image_bodyProgram :
    (parse 2 "f ['x']\n\tg" = .ok bodyProgram ∧ bodyProgram.isProgram = true) ∧
      bodyProgram.nesting ≤ 2 ∧
      ∃ text again, bodyProgram.format = .ok text ∧ parse 2 text = .ok again ∧
        again.onLine 0 = bodyProgram.onLine 0 := by
  obtain ⟨valid, within⟩ := (parse_image 2).1 _ _ parse_bodyProgram
  exact ⟨⟨parse_bodyProgram, valid⟩, within, (parse_image 2).2 bodyProgram valid within⟩

/-- The written form of a parsed program is read as the same program up to lines. Its line
expressions stand on the lines one, two, three and so on, with all that is on these lines; its
blocks begin where their first lines do, and if it is empty, it begins on line two. -/
theorem parse_format_of_parse {nesting : Nat} {source : String} {tree : Node}
    (parsed : parse nesting source = .ok tree) :
    ∃ text again, tree.format = .ok text ∧ parse nesting text = .ok again ∧ again = tree.renumber ∧
      again.onLine 0 = tree.onLine 0 ∧
      again.programOutline = Node.numbered 1 tree.programOutline ∧
      again.blocksAligned ∧
      (∀ line, tree = .block [] line → again = .block [] 2) ∧
      again.format = .ok text := by
  obtain ⟨valid, within⟩ := isProgram_of_parse parsed
  obtain ⟨text, written, read⟩ := parse_format valid within
  refine ⟨text, tree.renumber, written, read, rfl, tree.onLine_renumber 0,
    Node.programOutline_renumber valid, Node.blocksAligned_renumber valid, ?_, ?_⟩
  · intro line empty
    rw [empty]
    rfl
  · rw [Node.format_eq_of_onLine_eq (tree.onLine_renumber 0), written]

theorem parse_format_of_parse_bodyProgram :
    parse 2 "f ['x']\n\tg" = .ok bodyProgram ∧
      ∃ text again, bodyProgram.format = .ok text ∧ parse 2 text = .ok again ∧
        again = bodyProgram ∧ again.blocksAligned := by
  obtain ⟨text, again, written, read, same, -, -, aligned, -⟩ :=
    parse_format_of_parse parse_bodyProgram
  have unmoved : bodyProgram.renumber = bodyProgram := by decide
  exact ⟨parse_bodyProgram, text, again, written, read, same.trans unmoved, aligned⟩

end IndentLisp
