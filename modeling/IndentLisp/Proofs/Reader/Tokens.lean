import IndentLisp.Node.Tokens
import IndentLisp.Proofs.Reader.Phrase

/-!
# Tokens of what is read

The lexer passes over white space, comments and line ends as the readers do, and for a derived item
or phrase it lists the tokens of the tree, each on the line on which it stands.
-/

set_option autoImplicit false

namespace IndentLisp

open Grammar Reader

namespace Lexer

/-! ## White space, comments and line ends -/

private theorem tokens_lineEnd {ending rest : List Char} (isEnding : LineEnd ending)
    (joins : Joins ending rest) (line : Int) :
    tokens line (ending ++ rest) = tokens (line + 1) rest := by
  cases isEnding with
  | returnFeed => exact tokens.eq_2 line rest
  | feed => simp [tokens, isLineBreak]
  | «return» =>
      have alone : ∀ tail, rest ≠ '\n' :: tail := by
        rintro tail rfl
        exact joins rfl rfl
      simp [tokens, isLineBreak, alone]

/-- A character that neither breaks the line nor opens a comment, a literal or a bracket. -/
private theorem tokens_cons {c : Char} (inside : isLineBreak c = false)
    (plain : c ∉ [';', '\'', '[', '(']) (line : Int) (rest : List Char) :
    tokens line (c :: rest) =
      if endsSymbol c then tokens line rest
      else if c.isDigit then
        (.number (Numeral.ofDigits (c :: rest.takeWhile Char.isDigit)), line)
          :: tokens line (rest.dropWhile Char.isDigit)
      else
        (.symbol (String.ofList (c :: rest.takeWhile fun c => !endsSymbol c)), line)
          :: tokens line (rest.dropWhile fun c => !endsSymbol c) := by
  simp only [List.mem_cons, List.not_mem_nil, or_false, not_or] at plain
  obtain ⟨noComment, noLiteral, noBracket, noParenthesis⟩ := plain
  rw [tokens, inside]
  · simp
  · rintro tail rfl
    cases inside
  all_goals assumption

private theorem tokens_space {c : Char} (space : isSpace c = true) (line : Int) (rest : List Char) :
    tokens line (c :: rest) = tokens line rest := by
  obtain rfl | rfl : c = ' ' ∨ c = '\t' := by simpa [isSpace] using space
  all_goals exact tokens_cons rfl (by decide) line rest

private theorem tokens_closer {c : Char} (closes : c ∈ [']', ')']) (line : Int) (rest : List Char) :
    tokens line (c :: rest) = tokens line rest := by
  obtain rfl | rfl : c = ']' ∨ c = ')' := by simpa using closes
  all_goals exact tokens_cons rfl (by decide) line rest

private theorem tokens_spaces {spaces : List Char} (blank : ∀ c ∈ spaces, isSpace c = true)
    (line : Int) (rest : List Char) : tokens line (spaces ++ rest) = tokens line rest := by
  induction spaces with
  | nil => rfl
  | cons c spaces ih =>
      rw [List.cons_append, tokens_space (blank c List.mem_cons_self)]
      exact ih fun d member => blank d (List.mem_cons_of_mem c member)

private theorem tokens_comment {comment ending rest : List Char} (isComment : Comment comment)
    (isEnding : LineEnd ending) (line : Int) :
    tokens line (comment ++ ending ++ rest) = tokens line (ending ++ rest) := by
  cases isComment with
  | none => rfl
  | @some text inside =>
      have dropped : dropComment (';' :: text ++ ending ++ rest) = ending ++ rest :=
        dropComment_append (.some inside) isEnding rest
      rw [List.cons_append, List.cons_append, tokens]
      exact congrArg (tokens line) dropped

/-- The tokens of the unread text. -/
def unread (state : State) : List (Token × Int) := tokens state.line state.rest

theorem unread_skipSpace (state : State) : unread state.skipSpace = unread state := by
  obtain ⟨spaces, blank, advances⟩ := skipSpace_advances state
  have same : state.skipSpace.line = state.line := rfl
  rw [unread, unread, advances.rest, tokens_spaces blank, same]

theorem unread_endLine? {state next : State} (ended : state.endLine? = some next) :
    unread next = unread state := by
  obtain ⟨comment, ending, isComment, isEnding, joins, advances⟩ := endLine?_eq_some_iff.mp ended
  have count : next.line = state.line + 1 := by
    rw [advances.line, lineEnds_append_of_inside isComment.inside, isEnding.lineEnds_eq]
    rfl
  rw [unread, unread, advances.rest, tokens_comment isComment isEnding,
    tokens_lineEnd isEnding joins, count]

theorem unread_skipBlankLines (state : State) : unread state.skipBlankLines = unread state := by
  induction state using State.skipBlankLines.induct with
  | case1 state next ended ih =>
      rw [skipBlankLines_of_endLine? ended, ih, unread_endLine? ended, unread_skipSpace]
  | case2 state content => rw [skipBlankLines_eq_self content]

private theorem unread_skipGap (state : State) : unread state.skipGap = unread state := by
  rw [State.skipGap, unread_skipSpace, unread_skipBlankLines]

private theorem tokens_gap {gap after : List Char} (isGap : Gap gap)
    (solid : StartsWithout opensGap after) (line : Int) :
    tokens line (gap ++ after) = tokens (line + lineEnds gap) after := by
  have skipped := unread_skipGap ⟨gap ++ after, line, 0⟩
  rw [skipGap_append isGap solid] at skipped
  exact skipped.symm

/-! ## Literals -/

private theorem spanLiteral_append {written meant : List Char} (literal : Literal written meant)
    (after : List Char) : spanLiteral (written ++ '\'' :: after) = (written, after) := by
  induction literal with
  | nil => rfl
  | @raw c written meant noQuote noEscape literal ih =>
      rw [List.cons_append, spanLiteral, ih]
      · exact noQuote
      · intro d rest isEscape
        exact absurd isEscape noEscape
  | escape escape literal ih => rw [List.cons_append, List.cons_append, spanLiteral, ih]

theorem denoted_of_literal {written meant : List Char} (literal : Literal written meant) :
    denoted written = meant := by
  induction literal with
  | nil => rfl
  | @raw c written meant noQuote noEscape literal ih =>
      rw [denoted, ih]
      intro d rest isEscape
      exact absurd isEscape noEscape
  | escape escape literal ih => rw [denoted, escape, ih, Option.getD_some]

/-! ## Items -/

private theorem not_mem_of_not_endsSymbol {c : Char} (inside : endsSymbol c = false) :
    c ∉ [';', '\'', '[', '('] := by
  intro member
  simp only [List.mem_cons, List.not_mem_nil, or_false] at member
  rcases member with rfl | rfl | rfl | rfl <;> cases inside

private theorem tokens_digits {digits after : List Char} (nonempty : digits ≠ [])
    (decimal : ∀ c ∈ digits, c.isDigit = true) (outside : StartsWithout Char.isDigit after)
    (line : Int) :
    tokens line (digits ++ after) =
      (.number (Numeral.ofDigits digits), line) :: tokens line after := by
  obtain ⟨c, digits, rfl⟩ := List.exists_cons_of_ne_nil nonempty
  obtain ⟨isDigit, others⟩ := List.forall_mem_cons.mp decimal
  have letter := endsSymbol_eq_false_of_isDigit isDigit
  rw [List.cons_append,
    tokens_cons (not_isLineBreak_of_isDigit isDigit) (not_mem_of_not_endsSymbol letter),
    if_neg (by simp [letter]), if_pos isDigit, takeWhile_append_of_without others outside,
    dropWhile_append_of_without others outside]

private theorem tokens_name {name after : List Char} (valid : Node.isSymbolName name = true)
    (outside : StartsWithout (fun c => !endsSymbol c) after) (line : Int) :
    tokens line (name ++ after) = (.symbol (String.ofList name), line) :: tokens line after := by
  obtain ⟨nonempty, noDigit, letters⟩ := isSymbolName_iff.mp valid
  obtain ⟨c, name, rfl⟩ := List.exists_cons_of_ne_nil nonempty
  obtain ⟨letter, others⟩ := List.forall_mem_cons.mp letters
  have inside : endsSymbol c = false := by simpa using letter
  rw [List.cons_append,
    tokens_cons (not_isLineBreak_of_not_endsSymbol letter) (not_mem_of_not_endsSymbol inside),
    if_neg (by simp [inside]), if_neg (by simp [noDigit c rfl]),
    takeWhile_append_of_without others outside, dropWhile_append_of_without others outside]

mutual

/-- The tokens of a derived item come first, and those of the text behind it follow. -/
private theorem tokens_item {line : Int} {text after : List Char} {node : Node}
    (derived : Item line text node after) :
    tokens line (text ++ after) = node.tokens ++ tokens (line + lineEnds text) after := by
  cases derived with
  | number nonempty decimal _ follows =>
      have inside : ∀ c ∈ text, isLineBreak c = false := fun c member =>
        not_isLineBreak_of_isDigit (decimal c member)
      have outside : StartsWithout Char.isDigit after := StartsWith.not_isDigit follows
      rw [tokens_digits nonempty decimal outside, lineEnds_eq_zero_of_inside inside]
      simp [Node.tokens]
  | symbol valid ends =>
      have inside : ∀ c ∈ text, isLineBreak c = false := fun c member =>
        not_isLineBreak_of_not_endsSymbol ((isSymbolName_iff.mp valid).2.2 c member)
      rw [tokens_name valid ends, lineEnds_eq_zero_of_inside inside]
      simp [Node.tokens]
  | @string _ written meant _ literal =>
      rw [List.append_assoc, List.cons_append, List.singleton_append, tokens,
        spanLiteral_append literal, denoted_of_literal literal, List.cons_append,
        lineEnds_cons_of_inside rfl, lineEnds_append_closer rfl]
      rfl
  | @array _ text _ items derived =>
      have inner := tokens_items derived (startsWithout_cons.mpr rfl)
      rw [List.append_assoc, List.cons_append, List.singleton_append, tokens, inner,
        tokens_closer (by simp), List.cons_append, lineEnds_cons_of_inside rfl,
        lineEnds_append_closer rfl]
      rfl
  | @parenthesised _ gap text arguments _ head tail isGap _ first derived =>
      have solid := Item.solid first (arguments ++ ')' :: after)
      have inner := tokens_items derived (startsWithout_cons.mpr rfl)
      have count : lineEnds (gap ++ text ++ arguments) =
          lineEnds gap + lineEnds text + lineEnds arguments := lineEnds_items first arguments
      have split : '(' :: gap ++ text ++ arguments ++ [')'] ++ after =
          '(' :: (gap ++ (text ++ (arguments ++ ')' :: after))) := by simp
      rw [split, tokens, tokens_gap isGap solid, tokens_item first, inner,
        tokens_closer (by simp), List.cons_append, List.cons_append, List.cons_append,
        lineEnds_cons_of_inside rfl, lineEnds_append_closer rfl, count]
      simp only [Node.tokens, Int.natCast_add, Int.add_assoc, List.append_assoc]
      rfl

private theorem tokens_items {line : Int} {text after : List Char} {nodes : List Node}
    (derived : Items line text nodes after) (solid : StartsWithout opensGap after) :
    tokens line (text ++ after) =
      Node.tokensList nodes ++ tokens (line + lineEnds text) after := by
  cases derived with
  | nil isGap => rw [tokens_gap isGap solid]; rfl
  | @cons _ gap text rest _ node nodes isGap item items =>
      rw [List.append_assoc, List.append_assoc, tokens_gap isGap (Item.solid item _),
        tokens_item item, tokens_items items solid, lineEnds_items item]
      simp only [Node.tokensList, Int.natCast_add, Int.add_assoc, List.append_assoc]

end

/-! ## Phrases -/

private theorem tokens_arguments {line : Int} {text after : List Char} {nodes : List Node}
    (derived : Arguments line text nodes after) :
    tokens line (text ++ after) =
      Node.tokensList nodes ++ tokens (line + lineEnds text) after := by
  induction derived with
  | nil blank =>
      have inside := lineEnds_eq_zero_of_inside fun c member =>
        not_isLineBreak_of_isSpace (blank c member)
      rw [tokens_spaces blank, inside]
      simp [Node.tokensList]
  | cons blank item _ ih =>
      rw [lineEnds_arguments blank item, List.append_assoc, List.append_assoc,
        tokens_spaces blank, tokens_item item, ih]
      simp only [Node.tokensList, Int.natCast_add, Int.add_assoc, List.append_assoc]

theorem tokens_phrase {line : Int} {text after : List Char} {phrase : Phrase}
    (written : WrittenPhrase line text phrase after) :
    tokens line (text ++ after) = phrase.toNode.tokens ++ tokens (line + lineEnds text) after := by
  cases written with
  | mk _ item derived =>
      rw [List.append_assoc, tokens_item item, tokens_arguments derived,
        lineEnds_append (item.joins _)]
      simp only [Phrase.toNode, Node.tokens, if_true, List.nil_append, Int.natCast_add,
        Int.add_assoc, List.append_assoc]

end Lexer

end IndentLisp
