import IndentLisp.Proofs.Program.Listing
import IndentLisp.Proofs.Reader.LineOrder
import IndentLisp.Proofs.Reader.Tokens
import IndentLisp.Proofs.RoundTrip

/-!
# The tokens of a program

A program has exactly the tokens of its source text, in the same order and on the same lines. The
lines of its nodes never fall, and every line and block begins where what it starts with begins.
-/

set_option autoImplicit false

namespace IndentLisp

open Grammar Reader

namespace Reader

private theorem Advances.line_le {state next : State} {text : List Char}
    (advances : Advances state text next) : state.line ≤ next.line := by
  rw [advances.line]
  omega

private theorem beginsInside_of_written {line : Int} {text after : List Char} {phrase : Phrase}
    (written : WrittenPhrase line text phrase after) :
    ∀ node ∈ phrase.toNode.preorder, node.beginsInside := by
  cases written with
  | mk _ item derived =>
      refine List.forall_mem_cons.mpr ⟨fun _ => (Item.line_eq item).symm, ?_⟩
      exact List.forall_mem_append.mpr ⟨beginsInside_of_isItem item.isItem,
        allBeginInside_of_allItems (Arguments.allItems derived)⟩

/-! ## The lines of a listing -/

/-- The listed phrases have the tokens of the unread text, their lines never fall, and their
expressions begin where they should. -/
structure Faithful (state : State) (entries : List (Nat × Phrase)) : Prop where
  tokens : Lexer.unread state = entries.flatMap fun entry => entry.2.toNode.tokens
  climbs : ∃ high, Climbs state.line high (entries.flatMap fun entry => entry.2.toNode.lines)
  begins : ∀ entry ∈ entries, ∀ node ∈ entry.2.toNode.preorder, node.beginsInside

private theorem FirstLine.faithful {nesting : Nat} {above : Option Nat} {state stop below : State}
    {depth : Nat} {value : Phrase} {rest : List (Nat × Phrase)} (ended : Ended state.rest)
    (first : FirstLine nesting above state depth value stop below)
    (faithful : Faithful below rest) :
    Faithful state ((depth, value) :: rest) := by
  obtain ⟨text, advances, written, -, -⟩ := first.written ended
  obtain ⟨gap, -, skipped⟩ := skipBlankLines_advances state
  obtain ⟨_, _, -, -, -, ending⟩ := endLine?_eq_some_iff.mp first.ended
  obtain ⟨high, climbs⟩ := faithful.climbs
  have start : Lexer.unread state =
      Lexer.tokens state.skipBlankLines.line (text ++ stop.rest) := by
    rw [← Lexer.unread_skipBlankLines, ← Lexer.unread_skipSpace, ← advances.rest]
    rfl
  have behind : Lexer.tokens (state.skipBlankLines.line + lineEnds text) stop.rest =
      Lexer.unread below := by
    rw [Lexer.unread_endLine? first.ended, Lexer.unread, advances.line]
    rfl
  have last : state.skipBlankLines.line + lineEnds text = stop.line := advances.line.symm
  constructor
  · rw [start, Lexer.tokens_phrase written, behind, faithful.tokens]
    rfl
  · have lines := (climbs_phrase written).mono skipped.line_le (Int.le_refl _)
    rw [last] at lines
    exact ⟨high, lines.append (climbs.mono ending.line_le (Int.le_refl high))⟩
  · exact List.forall_mem_cons.mpr ⟨beginsInside_of_written written, faithful.begins⟩

private theorem listing_faithful {nesting : Nat} {above : Option Nat} {state : State}
    {entries : List (Nat × Phrase)} (ended : Ended state.rest)
    (listed : listing nesting above state = .ok entries) :
    Faithful state entries := by
  induction long : state.rest.length using Nat.strongRecOn generalizing above state entries with
  | ind size ih =>
      rcases exists_firstLine listed with ⟨done, rfl⟩ |
        ⟨depth, value, stop, below, rest, first, following, rfl⟩
      · refine ⟨?_, ⟨state.line, Int.le_refl _⟩, nofun⟩
        rw [← Lexer.unread_skipBlankLines, Lexer.unread, done, Lexer.tokens]
        rfl
      · have shorter := first.length_lt
        obtain ⟨_, -, -, -, endedBelow⟩ := first.written ended
        exact first.faithful ended (ih _ (by omega) endedBelow following rfl)

end Reader

/-! ## The nodes of a forest -/

namespace Node

private theorem tokensList_append (left right : List Node) :
    tokensList (left ++ right) = tokensList left ++ tokensList right := by
  induction left with
  | nil => rfl
  | cons node left ih => rw [List.cons_append, tokensList, tokensList, ih, List.append_assoc]

private theorem tokens_withBody (phrase : Phrase) (body : Body) :
    (phrase.withBody body).tokens = phrase.toNode.tokens ++ tokensList body.children := by
  rw [Phrase.withBody]
  split
  · next empty => rw [List.isEmpty_iff.mp empty, tokensList, List.append_nil]
  · simp [Phrase.toNode, tokens, tokensList_append, tokensList, Body.toNode]

private theorem lines_withBody (phrase : Phrase) {body : Body} (filled : body.children ≠ []) :
    (phrase.withBody body).lines =
      phrase.toNode.lines ++ (body.line :: linesList body.children) := by
  rw [Phrase.withBody, if_neg (by rwa [List.isEmpty_iff]), Phrase.toNode]
  simp only [lines_expression, linesList_append, linesList_cons, linesList_nil, Body.toNode,
    lines_block, List.append_nil, List.cons_append, List.append_assoc]

end Node

/-- A line with its body begins where it should, and so does its body. -/
private theorem beginsInside_withBody {phrase : Phrase} {body : Body}
    (here : ∀ node ∈ phrase.toNode.preorder, node.beginsInside)
    (below : AllBeginInside body.children)
    (starts : ∀ first ∈ body.children.head?, body.line = first.line) :
    ∀ node ∈ (phrase.withBody body).preorder, node.beginsInside := by
  rw [Phrase.withBody]
  split
  · exact here
  · obtain ⟨first, inside⟩ := List.forall_mem_cons.mp here
    obtain ⟨head, tail⟩ := List.forall_mem_append.mp inside
    have block : AllBeginInside [body.toNode] :=
      allBeginInside_cons_iff.mpr ⟨List.forall_mem_cons.mpr ⟨starts, below⟩, List.forall_mem_nil _⟩
    exact List.forall_mem_cons.mpr ⟨first, List.forall_mem_append.mpr
      ⟨head, allBeginInside_append_iff.mpr ⟨tail, block⟩⟩⟩

namespace Forest

open SourceLine

theorem tokens_nodes (forest : Forest Phrase) (depth : Nat) :
    Node.tokensList forest.nodes =
      (forest.preorder depth).flatMap fun entry => entry.2.toNode.tokens := by
  induction forest generalizing depth with
  | empty => rfl
  | cons root below others belowIH othersIH =>
      obtain ⟨line, starts⟩ := exists_startsOn below
      rw [nodes_cons root others starts, Node.tokensList, Node.tokens_withBody, belowIH (depth + 1),
        othersIH depth, preorder, List.flatMap_cons, List.flatMap_append, List.append_assoc]

private theorem line_eq_of_head?_nodes {forest : Forest Phrase} {line : Int}
    (starts : StartsOn line forest) : ∀ node ∈ forest.nodes.head?, line = node.line := by
  cases forest with
  | empty => nofun
  | cons first deeper next =>
      obtain ⟨inside, begins⟩ := exists_startsOn deeper
      rw [nodes_cons first next begins, Phrase.withBody]
      split <;> rintro _ ⟨⟩ <;> exact (starts first deeper next rfl).symm

private theorem exists_lines_nodes (first : Phrase) (deeper next : Forest Phrase) :
    ∃ lines, Node.linesList (Forest.cons first deeper next).nodes = first.line :: lines := by
  obtain ⟨line, starts⟩ := exists_startsOn deeper
  rw [nodes_cons first next starts, Node.linesList_cons, Phrase.withBody]
  split <;> exact ⟨_, rfl⟩

/-- A block begins on a line on which a line of the listing begins, so the blocks keep the lines in
order. -/
private theorem climbs_nodes (forest : Forest Phrase) {depth : Nat} {low high : Int}
    {rest : List Int} (climbs : Climbs low high
      (((forest.preorder depth).flatMap fun entry => entry.2.toNode.lines) ++ rest)) :
    Climbs low high (Node.linesList forest.nodes ++ rest) := by
  induction forest generalizing depth low rest with
  | empty => exact climbs
  | cons root below others belowIH othersIH =>
      rw [preorder, List.flatMap_cons, List.flatMap_append, List.append_assoc, List.append_assoc]
        at climbs
      obtain ⟨line, starts⟩ := exists_startsOn below
      rw [nodes_cons root others starts, Node.linesList_cons]
      cases below with
      | empty =>
          -- Without a body there is no block, and no line of one.
          rw [List.append_assoc]
          exact climbs.append_congr fun later => othersIH later
      | cons first deeper next =>
          obtain ⟨lines, begins⟩ := exists_lines_nodes first deeper next
          have filled : (Forest.cons first deeper next).nodes ≠ [] := nodes_cons_ne_nil _ _ _
          rw [Node.lines_withBody root filled, List.append_assoc, List.append_assoc]
          refine climbs.append_congr fun later => ?_
          have inner := (belowIH later).append_congr fun rest => othersIH rest
          rw [← starts first deeper next rfl, begins]
          rw [begins] at inner
          exact ⟨inner.1, Int.le_refl first.line, inner.2⟩

private theorem allBeginInside_nodes (forest : Forest Phrase) {depth : Nat}
    (begins : ∀ entry ∈ forest.preorder depth, ∀ node ∈ entry.2.toNode.preorder,
      node.beginsInside) : AllBeginInside forest.nodes := by
  induction forest generalizing depth with
  | empty => nofun
  | cons root below others belowIH othersIH =>
      obtain ⟨here, rest⟩ := List.forall_mem_cons.mp begins
      obtain ⟨inner, outer⟩ := List.forall_mem_append.mp rest
      obtain ⟨line, starts⟩ := exists_startsOn below
      rw [nodes_cons root others starts]
      exact allBeginInside_cons_iff.mpr
        ⟨beginsInside_withBody here (belowIH inner) (line_eq_of_head?_nodes starts), othersIH outer⟩

end Forest

/-! ## The tokens of a program -/

/-- A program that is parsed has the tokens of its text, on the lines on which they stand there.
Its line expressions begin on the lines of their heads, its blocks on the lines of their first
children, and so the lines of its nodes never fall. -/
theorem parse_tokens {nesting : Nat} {source : String} {tree : Node}
    (parsed : parse nesting source = .ok tree) :
    tree.tokens = Lexer.tokens 1 (terminated source.toList) ∧
      (∀ node ∈ tree.preorder, node.beginsInside) ∧
      (tree.preorder.map Node.line).Pairwise (· ≤ ·) := by
  obtain ⟨forest, line, rfl, starts, listed⟩ := exists_forest_of_parse parsed
  have faithful := listing_faithful (ended_start source) listed
  obtain ⟨high, climbs⟩ := faithful.climbs
  refine ⟨?_, ?_, ?_⟩
  · rw [Node.tokens, forest.tokens_nodes 0, ← faithful.tokens]
    rfl
  · exact List.forall_mem_cons.mpr
      ⟨forest.line_eq_of_head?_nodes starts, forest.allBeginInside_nodes faithful.begins⟩
  · have inner : Climbs 1 high (Node.linesList forest.nodes ++ []) :=
      forest.climbs_nodes (by rwa [List.append_nil])
    rw [List.append_nil] at inner
    cases forest with
    | empty => exact List.pairwise_singleton _ _
    | cons first deeper next =>
        obtain ⟨lines, begins⟩ := Forest.exists_lines_nodes first deeper next
        obtain rfl := starts first deeper next rfl
        rw [begins] at inner
        have all : Climbs 1 high
            (Node.block (Forest.cons first deeper next).nodes first.line).lines := by
          rw [Node.lines_block, begins]
          exact ⟨inner.1, Int.le_refl first.line, inner.2⟩
        exact all.pairwise

theorem parse_tokens_bodyProgram :
    parse 2 "f ['x']\n\tg" = .ok bodyProgram ∧
      Lexer.tokens 1 (terminated "f ['x']\n\tg".toList) =
        [(.symbol "f", 1), (.openBracket, 1), (.string "x", 1), (.symbol "g", 2)] ∧
      bodyProgram.preorder.map Node.line = [1, 1, 1, 1, 1, 2, 2, 2] ∧
      (bodyProgram.preorder.map Node.line).Pairwise (· ≤ ·) := by
  obtain ⟨same, -, ordered⟩ := parse_tokens parse_bodyProgram
  exact ⟨parse_bodyProgram, same.symm.trans (by decide), by decide, ordered⟩

end IndentLisp
