import IndentLisp.Proofs.Program.SourceLine

/-!
# Lines and the forest that they list

The texts of lines one after the other, and the forest that their depths describe. As nodes, what is
below a line is a block behind its arguments.
-/

set_option autoImplicit false

namespace IndentLisp

open Grammar Reader

/-- The lines of a forest as nodes. What is below a line is a block behind its arguments, and the
block begins where its first line does. -/
def Forest.nodes : Forest Phrase → List Node
  | empty => []
  | cons root empty others => root.toNode :: others.nodes
  | cons root (cons first below next) others =>
    .expression root.head
        (root.arguments ++ [.block (cons first below next).nodes first.line]) true root.line
      :: others.nodes

namespace SourceLine

theorem textOf_cons (line : SourceLine) (lines : List SourceLine) :
    textOf (line :: lines) = line.text ++ textOf lines :=
  List.flatMap_cons

theorem textOf_append (left right : List SourceLine) :
    textOf (left ++ right) = textOf left ++ textOf right :=
  List.flatMap_append

private theorem text_joins (line : SourceLine) (right : List Char) : Joins line.text right := by
  intro last
  rw [text, List.getLast?_concat] at last
  cases last

theorem lineEnds_textOf_cons (line : SourceLine) (lines : List SourceLine) :
    lineEnds (textOf (line :: lines)) = lineEnds line.text + lineEnds (textOf lines) := by
  rw [textOf_cons, lineEnds_append (line.text_joins _)]

theorem lineEnds_textOf_append (left right : List SourceLine) :
    lineEnds (textOf (left ++ right)) = lineEnds (textOf left) + lineEnds (textOf right) := by
  induction left with
  | nil => simp [textOf]
  | cons line left ih =>
      rw [List.cons_append, lineEnds_textOf_cons, lineEnds_textOf_cons, ih, Nat.add_assoc]

private theorem phrase_line (line : SourceLine) : line.phrase.line = 1 :=
  WrittenPhrase.line_eq line.written

/-- The first of the placed lines begins where the lines begin. -/
theorem placed_eq_cons {above depth : Nat} {lines : List SourceLine} {phrase : Phrase}
    {listing : List (Nat × Phrase)} (same : placed above lines = (depth, phrase) :: listing) :
    ∃ line rest, lines = line :: rest ∧ line.depth = depth ∧
      line.phrase.shiftLines above = phrase ∧ placed (above + lineEnds line.text) rest = listing ∧
        phrase.line = 1 + above := by
  cases lines with
  | nil => cases same
  | cons line lines =>
      obtain ⟨entry, rest⟩ := List.cons.inj same
      obtain ⟨depths, phrases⟩ := Prod.mk.inj entry
      refine ⟨line, lines, rfl, depths, phrases, rest, ?_⟩
      rw [← phrases, ← line.phrase_line]
      rfl

private theorem placed_append (above : Nat) (left right : List SourceLine) :
    placed above (left ++ right) =
      placed above left ++ placed (above + lineEnds (textOf left)) right := by
  induction left generalizing above with
  | nil => rfl
  | cons line left ih =>
      rw [List.cons_append, placed, ih, lineEnds_textOf_cons, Nat.add_assoc]
      rfl

theorem map_fst_placed (above : Nat) (lines : List SourceLine) :
    (placed above lines).map Prod.fst = lines.map depth := by
  induction lines generalizing above with
  | nil => rfl
  | cons line lines ih => rw [placed, List.map_cons, List.map_cons, ih]

theorem atEnd_text (line : SourceLine) (number level : Int) (more : List Char) :
    State.atEnd ⟨line.text ++ more, number, level⟩ = false := by
  simp [State.atEnd, text]

/-! ## Listing a forest -/

/-- The lines, below so many line ends, list the forest at the depth, and none has a space before
its content. -/
structure Lists (above depth : Nat) (lines : List SourceLine) (forest : Forest Phrase) : Prop where
  placed : placed above lines = forest.preorder depth
  plain : ∀ line ∈ lines, line.spaced = false

theorem Lists.nil (above depth : Nat) : Lists above depth [] .empty where
  placed := rfl
  plain := nofun

theorem Lists.cons {above : Nat} {line : SourceLine} {inner outer : List SourceLine}
    {below others : Forest Phrase} (plain : line.spaced = false)
    (first : Lists (above + lineEnds line.text) (line.depth + 1) inner below)
    (rest : Lists (above + lineEnds (textOf (line :: inner))) line.depth outer others) :
    Lists above line.depth (line :: inner ++ outer)
      (.cons (line.phrase.shiftLines above) below others) where
  placed := by
    rw [placed_append, SourceLine.placed, first.placed, rest.placed]
    rfl
  plain := by
    intro other member
    rcases List.mem_append.mp member with inside | outside
    · rcases List.mem_cons.mp inside with rfl | deeper
      · exact plain
      · exact first.plain other deeper
    · exact rest.plain other outside

theorem Lists.line_eq {above depth : Nat} {lines : List SourceLine} {forest : Forest Phrase}
    (lists : Lists above depth lines forest) :
    ∀ first deeper next, forest = .cons first deeper next → first.line = 1 + above := by
  rintro first deeper next rfl
  obtain ⟨_, _, -, -, -, -, start⟩ := placed_eq_cons lists.placed
  exact start

/-! ## The nodes of a forest -/

theorem nodes_cons_ne_nil (root : Phrase) (below others : Forest Phrase) :
    (Forest.cons root below others).nodes ≠ [] := by
  cases below <;> exact List.cons_ne_nil _ _

theorem nodes_cons (root : Phrase) {below : Forest Phrase} (others : Forest Phrase) {line : Int}
    (starts : ∀ first deeper next, below = .cons first deeper next → first.line = line) :
    (Forest.cons root below others).nodes = root.withBody ⟨below.nodes, line⟩ :: others.nodes := by
  cases below with
  | empty => rfl
  | cons first deeper next =>
      have some := nodes_cons_ne_nil first deeper next
      rw [Forest.nodes, Phrase.withBody, if_neg (by rwa [List.isEmpty_iff]),
        starts first deeper next rfl]
      rfl

end SourceLine

end IndentLisp
