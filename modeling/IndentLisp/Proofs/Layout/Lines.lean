import IndentLisp.Proofs.Layout.Item
import IndentLisp.Proofs.Node.Renumber
import IndentLisp.Proofs.Program.Blocks

/-!
# The written form of lines

The written form of well-formed lines is the text of source lines, one for each line expression.
They list a forest whose nodes are the written lines with the lines on which they then stand.
-/

set_option autoImplicit false

namespace IndentLisp

open Grammar Reader

namespace Node

private theorem shiftLines_onLine (count line : Int) (node : Node) :
    (node.onLine line).shiftLines count = node.onLine (line + count) :=
  mapLayout_mapLayout _ _ id id node

private theorem nesting_onLine (line : Int) (node : Node) :
    (node.onLine line).nesting = node.nesting :=
  nesting_mapLines _ node

/-- Each of several trees with a line end behind it. -/
def layoutEach (blocks : Nat) (nodes : List Node) : List Char :=
  nodes.flatMap fun node => node.layout blocks ++ ['\n']

theorem layoutLines_concat (blocks : Nat) (node : Node) (nodes : List Node) :
    layoutLines blocks (node :: nodes) ++ ['\n'] = layoutEach blocks (node :: nodes) := by
  induction nodes generalizing node with
  | nil => simp [layoutLines, layoutEach]
  | cons next nodes ih =>
      have each : layoutEach blocks (node :: next :: nodes) =
          node.layout blocks ++ '\n' :: layoutEach blocks (next :: nodes) := by simp [layoutEach]
      rw [each, ← ih]
      simp [layoutLines]

end Node

def Reader.Body.asArguments (body : Body) : List Node :=
  if body.children.isEmpty then [] else [body.toNode]

private theorem Reader.Phrase.withBody_eq (phrase : Phrase) (body : Body) :
    phrase.withBody body =
      .expression phrase.head (phrase.arguments ++ body.asArguments) true phrase.line := by
  rw [withBody, Body.asArguments]
  split
  · rw [List.append_nil]
    rfl
  · rfl

/-! ## One line -/

private theorem Reader.WrittenPhrase.of_layout {head : Node} {arguments : List Node}
    (leads : head.canLead = true) (validHead : head.isItem = true)
    (valid : Node.allItems arguments = true) (blocks : Nat) (line : Int) {after : List Char}
    (follows : StartsWith endsNumber after) :
    WrittenPhrase line (head.layout blocks ++ Node.layoutTail blocks arguments)
      ⟨head.onLine line, arguments.map (Node.onLine line), line⟩ after := by
  have before := startsWith_layoutTail valid blocks follows
  have first := Item.of_layout head validHead blocks line before
  have others := Arguments.of_layoutTail valid blocks line follows
  have same : line = line + lineEnds (head.layout blocks) := by
    simp [lineEnds_eq_zero_of_inside (Node.layout_inside head validHead blocks)]
  exact .mk ((Node.canLead_mapLines _ head).trans leads) first (same ▸ others)

structure Node.LineParts (head : Node) (arguments : List Node) : Prop where
  leads : head.canLead = true
  validHead : head.isItem = true
  valid : allItems arguments = true

namespace SourceLine

/-- The line with the given head and arguments, as it is written. -/
def ofItems (depth : Nat) {head : Node} {arguments : List Node}
    (parts : Node.LineParts head arguments) : SourceLine where
  depth := depth
  spaced := false
  content := head.layout (depth + 1) ++ Node.layoutTail (depth + 1) arguments
  phrase := ⟨head.onLine 1, arguments.map (Node.onLine 1), 1⟩
  reads := by
    have follows : StartsWith endsNumber ['\n'] := ⟨'\n', [], rfl, rfl⟩
    have written := WrittenPhrase.of_layout parts.leads parts.validHead parts.valid (depth + 1) 1
      follows
    exact ⟨_, _, readPhrase_of_written written (endsPhrase_feed []) (Nat.le_refl _) (-1), rfl⟩

variable {head : Node} {arguments : List Node}

private theorem text_ofItems (depth : Nat) (parts : Node.LineParts head arguments) :
    (ofItems depth parts).text =
      List.replicate depth '\t' ++ head.layout (depth + 1) ++
        Node.layoutTail (depth + 1) arguments ++ ['\n'] := by
  simp [text, indentation, ofItems]

theorem lineEnds_text_ofItems (depth : Nat) (parts : Node.LineParts head arguments) :
    lineEnds (ofItems depth parts).text = 1 := by
  have inside : ∀ c ∈ (ofItems depth parts).content, isLineBreak c = false :=
    List.forall_mem_append.mpr ⟨Node.layout_inside head parts.validHead (depth + 1),
      Node.layoutTail_inside arguments parts.valid (depth + 1)⟩
  rw [lineEnds_text, lineEnds_eq_zero_of_inside inside]

theorem nesting_ofItems (depth : Nat) (parts : Node.LineParts head arguments) :
    (ofItems depth parts).phrase.nesting = max head.nesting (Node.nestingList arguments) := by
  have same : Node.nestingList (arguments.map (Node.onLine 1)) = Node.nestingList arguments :=
    Node.nestingList_map_mapLines (fun _ => 1) arguments
  simp only [ofItems, Phrase.nesting, Node.nesting_onLine, same]

private theorem phrase_ofItems (depth above : Nat) (parts : Node.LineParts head arguments) :
    (ofItems depth parts).phrase.shiftLines above =
      ⟨head.onLine (1 + above), arguments.map (Node.onLine (1 + above)), 1 + above⟩ := by
  simp only [ofItems, Phrase.shiftLines, Node.shiftLines_onLine, List.map_map]
  congr 1
  exact List.map_congr_left fun node _ => Node.shiftLines_onLine above 1 node

/-! ## The lines of a block -/

/-- The lines are the written form of the nodes, in a block of the given depth below so many line
ends. They are nested no deeper than the nodes, and list a forest that has the nodes as they are
renumbered there. -/
structure WrittenLines (above depth : Nat) (nodes : List Node) (lines : List SourceLine)
    (forest : Forest Phrase) : Prop where
  lists : Lists above depth lines forest
  fits : ∀ line ∈ lines, line.depth + line.phrase.nesting ≤ depth + Node.nestingList nodes
  written : textOf lines = Node.layoutEach (depth + 1) nodes
  renumbered : forest.nodes = (Node.renumberLines (1 + above) nodes).1
  ends : (Node.renumberLines (1 + above) nodes).2 = 1 + (above + lineEnds (textOf lines) : Nat)

/-- The tail of a line is written as the arguments and, below them, the lines of its body. -/
structure WrittenTail (above depth : Nat) (tail arguments : List Node) (lines : List SourceLine)
    (forest : Forest Phrase) : Prop where
  valid : Node.allItems arguments = true
  within : Node.nestingList arguments ≤ Node.nestingList tail
  lists : Lists (above + 1) (depth + 1) lines forest
  fits : ∀ line ∈ lines, line.depth + line.phrase.nesting ≤ depth + Node.nestingList tail
  written : Node.layoutTail (depth + 1) tail ++ ['\n'] =
    Node.layoutTail (depth + 1) arguments ++ '\n' :: textOf lines
  renumbered : (Node.renumberTail (1 + above) tail).1 =
    arguments.map (Node.onLine (1 + above)) ++ Body.asArguments ⟨forest.nodes, 1 + above + 1⟩
  ends : (Node.renumberTail (1 + above) tail).2 = 1 + (above + 1 + lineEnds (textOf lines) : Nat)

private theorem WrittenLines.nil (above depth : Nat) : WrittenLines above depth [] [] .empty where
  lists := .nil above depth
  fits := nofun
  written := rfl
  renumbered := rfl
  ends := rfl

variable {above depth : Nat} {nodes tail : List Node} {lines inner : List SourceLine}
  {below others : Forest Phrase}

private theorem WrittenLines.cons (leads : head.canLead = true) (validHead : head.isItem = true)
    (line : Int)
    (body : WrittenTail above depth tail arguments inner below)
    (rest : WrittenLines (above + 1 + lineEnds (textOf inner)) depth nodes lines others) :
    ∃ first forest,
      WrittenLines above depth (.expression head tail true line :: nodes) (first :: inner ++ lines)
        forest := by
  have parts : Node.LineParts head arguments := ⟨leads, validHead, body.valid⟩
  have single := lineEnds_text_ofItems depth parts
  have nesting : Node.nestingList (.expression head tail true line :: nodes) =
      max (max head.nesting (Node.nestingList tail)) (Node.nestingList nodes) := rfl
  have number : above + lineEnds (textOf (ofItems depth parts :: inner ++ lines)) =
      above + 1 + lineEnds (textOf inner) + lineEnds (textOf lines) := by
    rw [lineEnds_textOf_append, lineEnds_textOf_cons, single]
    omega
  refine ⟨ofItems depth parts,
    .cons ((ofItems depth parts).phrase.shiftLines above) below others, ?_⟩
  constructor
  · have plain : (ofItems depth parts).spaced = false := rfl
    refine .cons plain ?_ ?_
    · rw [single]
      exact body.lists
    · rw [lineEnds_textOf_cons, single, ← Nat.add_assoc]
      exact rest.lists
  · have within := body.within
    rw [nesting]
    refine List.forall_mem_append.mpr ⟨List.forall_mem_cons.mpr ⟨?_, ?_⟩, ?_⟩
    · rw [nesting_ofItems]
      simp only [ofItems]
      omega
    · intro other member
      have fits := body.fits other member
      omega
    · intro other member
      have fits := rest.fits other member
      omega
  · have each : Node.layoutEach (depth + 1) (.expression head tail true line :: nodes) =
        List.replicate depth '\t' ++ head.layout (depth + 1) ++
          (Node.layoutTail (depth + 1) tail ++ ['\n']) ++ Node.layoutEach (depth + 1) nodes := by
      simp [Node.layoutEach, Node.layout]
    rw [each, body.written, textOf_append, textOf_cons, text_ofItems, rest.written]
    simp
  · have renumbered := rest.renumbered
    rw [← body.ends] at renumbered
    have start : (1 : Int) + (above + 1 : Nat) = 1 + above + 1 := by omega
    rw [nodes_cons _ others body.lists.line_eq, Phrase.withBody_eq, phrase_ofItems,
      renumbered, start, ← body.renumbered]
    rfl
  · have ends := rest.ends
    rw [← body.ends] at ends
    rw [number]
    exact ends

private theorem WrittenTail.nil (above depth : Nat) : WrittenTail above depth [] [] [] .empty where
  valid := rfl
  within := Nat.le_refl _
  lists := .nil (above + 1) (depth + 1)
  fits := nofun
  written := rfl
  renumbered := rfl
  ends := by
    simp only [Node.renumberTail, textOf, List.flatMap_nil, lineEnds_nil]
    omega

private theorem WrittenTail.block {children : List Node} (some : children ≠ []) (line : Int)
    (body : WrittenLines (above + 1) (depth + 1) children inner below) :
    WrittenTail above depth [.block children line] [] inner below := by
  have start : (1 : Int) + (above + 1 : Nat) = 1 + above + 1 := by omega
  have renumbered := body.renumbered
  have ends := body.ends
  rw [start] at renumbered ends
  obtain ⟨child, children, rfl⟩ := List.exists_cons_of_ne_nil some
  constructor
  · rfl
  · exact Nat.zero_le _
  · exact body.lists
  · intro other member
    have fits := body.fits other member
    have nesting : Node.nestingList [.block (child :: children) line] =
        max (Node.nestingList (child :: children) + 1) 0 := rfl
    omega
  · have text := Node.layoutLines_concat (depth + 1 + 1) child children
    rw [← body.written] at text
    simp [Node.layoutTail, Node.isBlock, Node.layout, ← text]
  · have filled : ¬ below.nodes.isEmpty = true := by
      rw [renumbered]
      exact Bool.false_ne_true
    rw [Body.asArguments, if_neg filled, Body.toNode, renumbered]
    rfl
  · exact ends

private theorem WrittenTail.cons {node : Node} (valid : node.isItem = true)
    (rest : WrittenTail above depth tail arguments inner below) :
    WrittenTail above depth (node :: tail) (node :: arguments) inner below := by
  have item := Node.not_isBlock_of_isItem valid
  constructor
  · exact Node.allItems_cons_iff.mpr ⟨valid, rest.valid⟩
  · have within := rest.within
    rw [Node.nestingList, Node.nestingList]
    omega
  · exact rest.lists
  · intro other member
    exact Nat.le_trans (rest.fits other member) (Nat.add_le_add_left (Nat.le_max_right _ _) depth)
  · rw [Node.layoutTail, Node.layoutTail, List.append_assoc, rest.written, List.append_assoc]
  · rw [Node.renumberTail_cons_item item, rest.renumbered]
    rfl
  · rw [Node.renumberTail_cons_item item, rest.ends]

mutual

/-- Well-formed lines are written as source lines. -/
theorem exists_writtenLines (nodes : List Node) (valid : Node.allLines nodes = true)
    (above depth : Nat) :
    ∃ lines forest, WrittenLines above depth nodes lines forest := by
  cases nodes with
  | nil => exact ⟨[], .empty, .nil above depth⟩
  | cons node nodes =>
      obtain ⟨first, others⟩ := Node.allLines_cons_iff.mp valid
      cases node with
      | block | symbol | number | string | array | unknown => cases first
      | expression head tail lineForm line =>
          obtain ⟨rfl, leads, validHead, validTail⟩ := Node.isLine_expression_iff.mp first
          obtain ⟨arguments, inner, below, body⟩ := exists_writtenTail tail validTail above depth
          obtain ⟨outer, forest, rest⟩ :=
            exists_writtenLines nodes others (above + 1 + lineEnds (textOf inner)) depth
          obtain ⟨line, forest, all⟩ := WrittenLines.cons leads validHead line body rest
          exact ⟨_, forest, all⟩

private theorem exists_writtenTail (tail : List Node) (valid : Node.isLineTail tail = true)
    (above depth : Nat) :
    ∃ arguments lines forest, WrittenTail above depth tail arguments lines forest := by
  cases tail with
  | nil => exact ⟨[], [], .empty, .nil above depth⟩
  | cons node nodes =>
      cases node with
      | block children line =>
          obtain ⟨rfl, filled, validChildren⟩ := Node.isLineTail_block_iff.mp valid
          obtain ⟨lines, forest, body⟩ :=
            exists_writtenLines children validChildren (above + 1) (depth + 1)
          exact ⟨[], lines, forest, .block filled line body⟩
      | expression | symbol | number | string | array | unknown =>
          obtain ⟨first, others⟩ := (Node.isLineTail_cons_iff rfl).mp valid
          obtain ⟨arguments, lines, forest, rest⟩ := exists_writtenTail nodes others above depth
          exact ⟨_, lines, forest, .cons first rest⟩

end

end SourceLine

end IndentLisp
