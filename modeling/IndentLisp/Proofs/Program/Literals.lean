import IndentLisp.Proofs.Node.Strings
import IndentLisp.Proofs.Program.Tokens

/-!
# The literals of a program

A program has exactly the strings that the literals of its source text denote, in the same order.
-/

set_option autoImplicit false

namespace IndentLisp

open Grammar Reader

namespace Lexer

/-! ## Text around literals -/

theorem literals_cons {c : Char} (noQuote : c ≠ '\'') (noComment : c ≠ ';') (rest : List Char) :
    literals (c :: rest) = literals rest := by
  rw [literals]
  · exact noComment
  · exact noQuote

theorem literals_append_plain {text : List Char} (plain : ∀ c ∈ text, c ≠ '\'' ∧ c ≠ ';')
    (rest : List Char) : literals (text ++ rest) = literals rest := by
  induction text with
  | nil => rfl
  | cons c text ih =>
      obtain ⟨⟨noQuote, noComment⟩, others⟩ := List.forall_mem_cons.mp plain
      rw [List.cons_append, literals_cons noQuote noComment, ih others]

private theorem plain_of_isSpace {c : Char} (space : isSpace c = true) : c ≠ '\'' ∧ c ≠ ';' := by
  constructor <;> rintro rfl <;> cases space

private theorem plain_of_lineEnd {ending : List Char} (isEnding : LineEnd ending) :
    ∀ c ∈ ending, c ≠ '\'' ∧ c ≠ ';' := by
  cases isEnding <;> simp

private theorem plain_of_letters {text : List Char} (letters : ∀ c ∈ text, (!endsSymbol c) = true) :
    ∀ c ∈ text, c ≠ '\'' ∧ c ≠ ';' := by
  intro c member
  have letter := letters c member
  constructor <;> rintro rfl <;> cases letter

private theorem literals_comment {comment ending : List Char} (isComment : Comment comment)
    (isEnding : LineEnd ending) (rest : List Char) :
    literals (comment ++ ending ++ rest) = literals rest := by
  rw [← literals_append_plain (plain_of_lineEnd isEnding) rest]
  cases isComment with
  | none => rfl
  | @some text inside =>
      have dropped : dropComment (';' :: text ++ ending ++ rest) = ending ++ rest :=
        dropComment_append (.some inside) isEnding rest
      rw [List.cons_append, List.cons_append, literals]
      exact congrArg literals dropped

private theorem literals_gap {gap : List Char} (isGap : Gap gap) (rest : List Char) :
    literals (gap ++ rest) = literals rest := by
  induction isGap with
  | nil => rfl
  | space space _ ih =>
      obtain ⟨noQuote, noComment⟩ := plain_of_isSpace space
      rw [List.cons_append, literals_cons noQuote noComment, ih]
  | lineEnd isComment isEnding _ ih =>
      rw [List.append_assoc, literals_comment isComment isEnding, ih]

/-! ## Literals -/

theorem closeLiteral?_raw {c : Char} (noQuote : c ≠ '\'') (noEscape : c ≠ '\\')
    (rest : List Char) :
    closeLiteral? (c :: rest) = (closeLiteral? rest).map (Prod.map (c :: ·) id) := by
  rw [closeLiteral?]
  · exact noQuote
  · intro d tail isEscape _
    exact noEscape isEscape

theorem closeLiteral?_append {written meant : List Char} (literal : Literal written meant)
    (after : List Char) : closeLiteral? (written ++ '\'' :: after) = some (written, after) := by
  induction literal with
  | nil => rfl
  | raw noQuote noEscape _ ih =>
      rw [List.cons_append, closeLiteral?_raw noQuote noEscape, ih]
      rfl
  | escape _ _ ih =>
      rw [List.cons_append, List.cons_append, closeLiteral?, ih]
      rfl

theorem literals_of_closed {text inside after : List Char}
    (closed : closeLiteral? text = some (inside, after)) :
    literals ('\'' :: text) = inside :: literals after := by
  rw [literals]
  split
  · next other =>
    cases closed.symm.trans other
    rfl
  · next none => cases closed.symm.trans none

theorem literals_of_open {text : List Char} (opened : closeLiteral? text = none) :
    literals ('\'' :: text) = [] := by
  rw [literals]
  split
  · next closed => cases opened.symm.trans closed
  · rfl

/-! ## Items and phrases -/

mutual

/-- The strings of a derived item come first, and those of the text behind it follow. -/
private theorem literals_item {line : Int} {text after : List Char} {node : Node}
    (derived : Item line text node after) :
    (literals (text ++ after)).map denotedText =
      node.strings ++ (literals after).map denotedText := by
  cases derived with
  | number _ decimal =>
      have plain := plain_of_letters fun c member => not_endsSymbol_of_isDigit (decimal c member)
      rw [literals_append_plain plain]
      rfl
  | symbol valid =>
      rw [literals_append_plain (plain_of_letters (isSymbolName_iff.mp valid).2.2)]
      rfl
  | string literal =>
      have closed := closeLiteral?_append literal after
      rw [List.append_assoc, List.cons_append, List.singleton_append, literals_of_closed closed,
        List.map_cons, denotedText, denoted_of_literal literal]
      rfl
  | @array _ text _ items derived =>
      have split : '[' :: text ++ [']'] ++ after = '[' :: (text ++ ']' :: after) := by simp
      rw [split, literals_cons (by decide) (by decide), literals_items derived,
        literals_cons (by decide) (by decide)]
      rfl
  | @parenthesised _ gap text arguments _ head tail isGap _ first derived =>
      have split : '(' :: gap ++ text ++ arguments ++ [')'] ++ after =
          '(' :: (gap ++ (text ++ (arguments ++ ')' :: after))) := by simp
      rw [split, literals_cons (by decide) (by decide), literals_gap isGap, literals_item first,
        literals_items derived, literals_cons (by decide) (by decide), Node.strings_expression,
        List.append_assoc]

private theorem literals_items {line : Int} {text after : List Char} {nodes : List Node}
    (derived : Items line text nodes after) :
    (literals (text ++ after)).map denotedText =
      Node.stringsList nodes ++ (literals after).map denotedText := by
  cases derived with
  | nil isGap =>
      rw [literals_gap isGap]
      rfl
  | cons isGap item items =>
      rw [List.append_assoc, List.append_assoc, literals_gap isGap, literals_item item,
        literals_items items, Node.stringsList_cons, List.append_assoc]

end

private theorem literals_spaces {spaces : List Char} (blank : ∀ c ∈ spaces, isSpace c = true)
    (rest : List Char) : literals (spaces ++ rest) = literals rest :=
  literals_append_plain (fun c member => plain_of_isSpace (blank c member)) rest

private theorem literals_arguments {line : Int} {text after : List Char} {nodes : List Node}
    (derived : Arguments line text nodes after) :
    (literals (text ++ after)).map denotedText =
      Node.stringsList nodes ++ (literals after).map denotedText := by
  induction derived with
  | nil blank =>
      rw [literals_spaces blank]
      rfl
  | cons blank item _ ih =>
      rw [List.append_assoc, List.append_assoc, literals_spaces blank, literals_item item, ih,
        Node.stringsList_cons, List.append_assoc]

private theorem literals_phrase {line : Int} {text after : List Char} {phrase : Phrase}
    (written : WrittenPhrase line text phrase after) :
    (literals (text ++ after)).map denotedText =
      phrase.toNode.strings ++ (literals after).map denotedText := by
  cases written with
  | mk _ item derived =>
      rw [List.append_assoc, literals_item item, literals_arguments derived, Phrase.toNode,
        Node.strings_expression, List.append_assoc]

end Lexer

/-! ## Programs -/

namespace Reader

private theorem FirstLine.literals {nesting : Nat} {above : Option Nat} {state stop below : State}
    {depth : Nat} {value : Phrase} (ended : Ended state.rest)
    (first : FirstLine nesting above state depth value stop below) :
    (Lexer.literals state.rest).map Lexer.denotedText =
      value.toNode.strings ++ (Lexer.literals below.rest).map Lexer.denotedText := by
  obtain ⟨text, advances, written, -, -⟩ := first.written ended
  obtain ⟨gap, isGap, skipped⟩ := skipBlankLines_advances state
  obtain ⟨spaces, blank, spaced⟩ := skipSpace_advances state.skipBlankLines
  obtain ⟨comment, ending, isComment, isEnding, -, behind⟩ := endLine?_eq_some_iff.mp first.ended
  have start : state.skipBlankLines.skipSpace.rest = text ++ stop.rest := advances.rest
  rw [skipped.rest, Lexer.literals_gap isGap, spaced.rest, Lexer.literals_spaces blank, start,
    Lexer.literals_phrase written, behind.rest, Lexer.literals_comment isComment isEnding]

private theorem listing_literals {nesting : Nat} {above : Option Nat} {state : State}
    {entries : List (Nat × Phrase)} (ended : Ended state.rest)
    (listed : listing nesting above state = .ok entries) :
    (Lexer.literals state.rest).map Lexer.denotedText =
      entries.flatMap fun entry => entry.2.toNode.strings := by
  induction long : state.rest.length using Nat.strongRecOn generalizing above state entries with
  | ind size ih =>
      rcases exists_firstLine listed with ⟨done, rfl⟩ |
        ⟨depth, value, stop, below, rest, first, following, rfl⟩
      · obtain ⟨gap, isGap, skipped⟩ := skipBlankLines_advances state
        rw [skipped.rest, Lexer.literals_gap isGap, done, Lexer.literals]
        rfl
      · have shorter := first.length_lt
        obtain ⟨_, -, -, -, endedBelow⟩ := first.written ended
        rw [first.literals ended, ih _ (by omega) endedBelow following rfl]
        rfl

end Reader

/-- A program that is parsed has the strings that the literals of its text denote. -/
theorem strings_of_parse {nesting : Nat} {source : String} {tree : Node}
    (parsed : parse nesting source = .ok tree) :
    tree.strings = (Lexer.literals (terminated source.toList)).map Lexer.denotedText := by
  obtain ⟨forest, line, rfl, -, listed⟩ := exists_forest_of_parse parsed
  have literals := listing_literals (ended_start source) listed
  rw [State.start] at literals
  rw [literals, Node.strings_block, Node.stringsList, forest.tokens_nodes 0, List.filterMap_flatMap]
  rfl

end IndentLisp
