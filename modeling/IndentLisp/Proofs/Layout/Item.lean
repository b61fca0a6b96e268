import IndentLisp.Layout
import IndentLisp.Proofs.Grammar.Derivation
import IndentLisp.Proofs.Text.Numeral
import IndentLisp.Proofs.Node.Lines
import IndentLisp.Proofs.Node.WellFormed

/-!
# The written form of items

A well-formed item is written on one line, and the grammar derives the item, placed on this line,
from its written form.
-/

set_option autoImplicit false

namespace IndentLisp

open Grammar

/-! ## Literals -/

theorem Grammar.Literal.of_encode (text : List Char) : Literal (Quoted.encode text) text := by
  induction text with
  | nil => exact .nil
  | cons c text ih =>
      rw [Quoted.encode, List.flatMap_cons, Quoted.encodeChar]
      cases escaped : Quoted.escape? c with
      | some letter => exact .escape (Quoted.unescape?_of_escape? escaped) ih
      | none =>
          refine .raw ?_ ?_ ih
          · intro quote
            subst quote
            cases escaped
          · intro backslash
            subst backslash
            cases escaped

namespace Quoted

private theorem not_isLineBreak_of_escape? {c letter : Char} (escaped : escape? c = some letter) :
    isLineBreak letter = false := by
  unfold escape? at escaped
  split at escaped <;> cases escaped <;> rfl

private theorem not_isLineBreak_of_not_escaped {c : Char} (plain : escape? c = none) :
    isLineBreak c = false := by
  rw [isLineBreak, Bool.or_eq_false_iff, beq_eq_false_iff_ne, beq_eq_false_iff_ne]
  constructor
  · intro feed
    subst feed
    cases plain
  · intro return_
    subst return_
    cases plain

private theorem not_isLineBreak_of_mem_encode {text : List Char} {c : Char}
    (member : c ∈ encode text) :
    isLineBreak c = false := by
  obtain ⟨original, -, inside⟩ := List.mem_flatMap.mp member
  unfold encodeChar at inside
  cases escaped : escape? original with
  | some letter =>
      simp only [escaped, List.mem_cons, List.not_mem_nil, or_false] at inside
      rcases inside with rfl | rfl
      · rfl
      · exact not_isLineBreak_of_escape? escaped
  | none =>
      simp only [escaped, List.mem_singleton] at inside
      rw [inside]
      exact not_isLineBreak_of_not_escaped escaped

end Quoted

/-! ## A written item stands on one line -/

namespace Node

theorem not_isLineBreak_of_isSymbolName {name : List Char} (valid : isSymbolName name = true)
    {c : Char} (member : c ∈ name) : isLineBreak c = false := by
  cases name with
  | nil => cases member
  | cons first rest =>
      rw [isSymbolName, Bool.and_eq_true, List.all_eq_true] at valid
      exact not_isLineBreak_of_not_endsSymbol (valid.2 c member)

mutual

theorem layout_inside (node : Node) (valid : node.isItem = true) (blocks : Nat) :
    ∀ c ∈ node.layout blocks, isLineBreak c = false := by
  cases node with
  | block | unknown => cases valid
  | symbol name => exact fun c member => not_isLineBreak_of_isSymbolName valid member
  | number value =>
      obtain ⟨natural, rfl, -⟩ := exists_nat_of_isItem valid
      intro c member
      exact not_isLineBreak_of_isDigit (Numeral.isDigit_of_mem_toText member)
  | string text =>
      simp only [layout, Quoted.quote, List.forall_mem_append, List.forall_mem_cons]
      exact ⟨⟨rfl, fun c member => Quoted.not_isLineBreak_of_mem_encode member⟩, rfl, nofun⟩
  | array items =>
      simp only [layout, List.forall_mem_append, List.forall_mem_cons]
      exact ⟨⟨rfl, layoutItems_inside items valid blocks⟩, rfl, nofun⟩
  | expression head tail lineForm =>
      obtain ⟨rfl, -, validHead, validTail⟩ := isItem_expression_iff.mp valid
      simp only [layout, List.forall_mem_append, List.forall_mem_cons]
      exact ⟨⟨⟨rfl, layout_inside head validHead blocks⟩,
        layoutTail_inside tail validTail blocks⟩, rfl, nofun⟩

private theorem layoutItems_inside (nodes : List Node) (valid : allItems nodes = true)
    (blocks : Nat) :
    ∀ c ∈ layoutItems blocks nodes, isLineBreak c = false := by
  cases nodes with
  | nil => exact nofun
  | cons node nodes =>
      obtain ⟨first, others⟩ := allItems_cons_iff.mp valid
      cases nodes with
      | nil => exact layout_inside node first blocks
      | cons next nodes =>
          simp only [layoutItems, List.forall_mem_append, List.forall_mem_cons]
          exact ⟨layout_inside node first blocks, rfl,
            layoutItems_inside (next :: nodes) others blocks⟩

theorem layoutTail_inside (nodes : List Node) (valid : allItems nodes = true) (blocks : Nat) :
    ∀ c ∈ layoutTail blocks nodes, isLineBreak c = false := by
  cases nodes with
  | nil => exact nofun
  | cons node nodes =>
      obtain ⟨first, others⟩ := allItems_cons_iff.mp valid
      rw [layoutTail, not_isBlock_of_isItem first]
      simp only [List.forall_mem_append, List.forall_mem_cons]
      exact ⟨⟨rfl, layout_inside node first blocks⟩, layoutTail_inside nodes others blocks⟩

end

end Node

/-! ## Deriving the written form -/

namespace Grammar

theorem Items.space {line : Int} {text after : List Char} {nodes : List Node}
    (derived : Items line text nodes after) : Items line (' ' :: text) nodes after := by
  cases derived with
  | nil gap => exact .nil (.space rfl gap)
  | cons gap item items =>
      have same := lineEnds_cons_of_inside (c := ' ') rfl
      exact .cons (.space rfl gap) (by rwa [same]) (by rwa [same])

theorem Items.cons_inside {line : Int} {text rest after : List Char} {node : Node}
    {nodes : List Node} (item : Item line text node (rest ++ after))
    (inside : ∀ c ∈ text, isLineBreak c = false) (items : Items line rest nodes after) :
    Items line (text ++ rest) (node :: nodes) after := by
  have here : line = line + lineEnds ([] : List Char) := by simp
  have same : line = line + lineEnds ([] : List Char) + lineEnds text := by
    simp [lineEnds_eq_zero_of_inside inside]
  exact .cons .nil (here ▸ item) (same ▸ items)

/-- A parenthesised expression whose head follows at once and stands on one line. -/
theorem Item.parenthesised_inside {line : Int} {text arguments after : List Char} {head : Node}
    {tail : List Node} (leads : head.canLead = true)
    (first : Item line text head (arguments ++ ')' :: after))
    (inside : ∀ c ∈ text, isLineBreak c = false)
    (items : Items line arguments tail (')' :: after)) :
    Item line ('(' :: text ++ arguments ++ [')']) (.expression head tail false line) after := by
  have here : line = line + lineEnds ([] : List Char) := by simp
  have same : line = line + lineEnds ([] : List Char) + lineEnds text := by
    simp [lineEnds_eq_zero_of_inside inside]
  exact @Item.parenthesised line [] text arguments after head tail .nil leads (here ▸ first)
    (same ▸ items)

theorem Arguments.cons_inside {line : Int} {text rest after : List Char} {node : Node}
    {nodes : List Node} (item : Item line text node (rest ++ after))
    (inside : ∀ c ∈ text, isLineBreak c = false) (arguments : Arguments line rest nodes after) :
    Arguments line (' ' :: text ++ rest) (node :: nodes) after := by
  have same : line = line + lineEnds text := by simp [lineEnds_eq_zero_of_inside inside]
  have blank : ∀ c ∈ [' '], isSpace c = true := by
    intro c member
    rw [List.mem_singleton.mp member]
    rfl
  exact .cons blank item (same ▸ arguments)

theorem startsWith_space (text : List Char) : StartsWith endsNumber (' ' :: text) :=
  ⟨' ', text, rfl, rfl⟩

theorem startsWith_layoutTail {nodes : List Node} (valid : Node.allItems nodes = true)
    (blocks : Nat) {after : List Char} (follows : StartsWith endsNumber after) :
    StartsWith endsNumber (Node.layoutTail blocks nodes ++ after) := by
  cases nodes with
  | nil => exact follows
  | cons node nodes =>
      rw [Node.layoutTail, Node.not_isBlock_of_isItem (Node.allItems_cons_iff.mp valid).1]
      exact startsWith_space _

theorem StartsWith.endsSymbol {text : List Char} (follows : StartsWith endsNumber text) :
    StartsWithout (fun c => !IndentLisp.endsSymbol c) text := by
  obtain ⟨c, rest, rfl, ends⟩ := follows
  intro first same
  cases same
  simp only [endsSymbol_of_endsNumber ends, Bool.not_true]

mutual

/-- A well-formed item is derived from its written form, before whatever may follow a number. -/
theorem Item.of_layout (node : Node) (valid : node.isItem = true) (blocks : Nat) (line : Int)
    {after : List Char} (follows : StartsWith endsNumber after) :
    Item line (node.layout blocks) (node.onLine line) after := by
  cases node with
  | block | unknown => cases valid
  | symbol name =>
      have derived : Item line name.toList (.symbol (String.ofList name.toList) line) after :=
        .symbol valid follows.endsSymbol
      rwa [String.ofList_toList] at derived
  | number value =>
      obtain ⟨natural, rfl, short⟩ := Node.exists_nat_of_isItem valid
      have derived : Item line (Numeral.toText natural)
          (.number (Numeral.ofDigits (Numeral.toText natural)) line) after :=
        .number (Numeral.toText_ne_nil natural) (fun _ => Numeral.isDigit_of_mem_toText)
          (Numeral.length_toText_le short) follows
      rwa [Numeral.ofDigits_toText] at derived
  | string text =>
      have derived :
          Item line (Quoted.quote text) (.string (String.ofList text.toList) line) after :=
        .string (.of_encode text.toList)
      rwa [String.ofList_toList] at derived
  | array items =>
      have derived := Items.of_layoutItems items valid blocks line after
      rw [Node.onLine, Node.mapLines, Node.mapLayout, Node.mapLayoutList_eq_map]
      exact .array derived
  | expression head tail lineForm =>
      obtain ⟨rfl, leads, validHead, validTail⟩ := Node.isItem_expression_iff.mp valid
      have before := startsWith_layoutTail validTail blocks ⟨')', after, rfl, rfl⟩
      have first := Item.of_layout head validHead blocks line before
      have items := Items.of_layoutTail tail validTail blocks line after
      rw [Node.onLine, Node.mapLines, Node.mapLayout, Node.mapLayoutList_eq_map]
      exact .parenthesised_inside ((Node.canLead_mapLines _ head).trans leads) first
        (Node.layout_inside head validHead blocks) items

private theorem Items.of_layoutItems (nodes : List Node) (valid : Node.allItems nodes = true)
    (blocks : Nat) (line : Int) (after : List Char) :
    Items line (Node.layoutItems blocks nodes) (nodes.map (Node.onLine line)) (']' :: after) := by
  cases nodes with
  | nil => exact .nil .nil
  | cons node nodes =>
      obtain ⟨first, others⟩ := Node.allItems_cons_iff.mp valid
      have inside := Node.layout_inside node first blocks
      cases nodes with
      | nil =>
          have item := Item.of_layout node first blocks line ⟨']', after, rfl, rfl⟩
          have ends : Items line [] [] (']' :: after) := .nil .nil
          have alone := Items.cons_inside item inside ends
          rwa [List.append_nil] at alone
      | cons next nodes =>
          have items := Items.of_layoutItems (next :: nodes) others blocks line after
          have follows := startsWith_space (Node.layoutItems blocks (next :: nodes) ++ ']' :: after)
          exact .cons_inside (Item.of_layout node first blocks line follows) inside (.space items)

private theorem Items.of_layoutTail (nodes : List Node) (valid : Node.allItems nodes = true)
    (blocks : Nat) (line : Int) (after : List Char) :
    Items line (Node.layoutTail blocks nodes) (nodes.map (Node.onLine line)) (')' :: after) := by
  cases nodes with
  | nil => exact .nil .nil
  | cons node nodes =>
      obtain ⟨first, others⟩ := Node.allItems_cons_iff.mp valid
      have follows := startsWith_layoutTail others blocks ⟨')', after, rfl, rfl⟩
      have item := Item.of_layout node first blocks line follows
      rw [Node.layoutTail, Node.not_isBlock_of_isItem first]
      exact .space (.cons_inside item (Node.layout_inside node first blocks)
        (Items.of_layoutTail nodes others blocks line after))

end

/-- The arguments of a line are derived from their written form, too. -/
theorem Arguments.of_layoutTail {nodes : List Node} (valid : Node.allItems nodes = true)
    (blocks : Nat) (line : Int) {after : List Char} (follows : StartsWith endsNumber after) :
    Arguments line (Node.layoutTail blocks nodes) (nodes.map (Node.onLine line)) after := by
  induction nodes with
  | nil => exact .nil nofun
  | cons node nodes ih =>
      obtain ⟨first, others⟩ := Node.allItems_cons_iff.mp valid
      have item :=
        Item.of_layout node first blocks line (startsWith_layoutTail others blocks follows)
      rw [Node.layoutTail, Node.not_isBlock_of_isItem first]
      exact .cons_inside item (Node.layout_inside node first blocks) (ih others)

end Grammar

end IndentLisp
