import IndentLisp.Proofs.Grammar
import IndentLisp.Proofs.Node.Lines
import IndentLisp.Proofs.Text.Numeral

/-!
# Derivations of items

What every derived item has in common: with which characters it starts and ends, that only the next
character of the text behind it matters, that it can be moved to another line, and that the node is
a well-formed item.
-/

set_option autoImplicit false

namespace IndentLisp.Grammar

/-! ## Comments and line ends -/

theorem Comment.inside {comment : List Char} (isComment : Comment comment) :
    ∀ c ∈ comment, isLineBreak c = false := by
  cases isComment with
  | none => simp
  | some inside => simpa using ⟨rfl, inside⟩

theorem LineEnd.lineEnds_eq {ending : List Char} (isEnding : LineEnd ending) :
    lineEnds ending = 1 := by
  cases isEnding <;> rfl

theorem LineEnd.ne_nil {ending : List Char} (isEnding : LineEnd ending) : ending ≠ [] := by
  cases isEnding <;> simp

theorem Gap.spaces {spaces gap : List Char} (blank : ∀ c ∈ spaces, isSpace c = true)
    (isGap : Gap gap) : Gap (spaces ++ gap) := by
  induction spaces with
  | nil => exact isGap
  | cons c spaces ih =>
      exact .space (blank c List.mem_cons_self)
        (ih fun d member => blank d (List.mem_cons_of_mem c member))

theorem Gap.append {left right : List Char} (first : Gap left) (second : Gap right) :
    Gap (left ++ right) := by
  induction first with
  | nil => exact second
  | space space _ ih => exact .space space ih
  | lineEnd isComment isEnding _ ih =>
      rw [List.append_assoc]
      exact .lineEnd isComment isEnding ih

/-! ## The text behind an item -/

theorem head?_append_congr {text after after' : List Char} (same : after.head? = after'.head?) :
    (text ++ after).head? = (text ++ after').head? := by
  cases text with
  | nil => exact same
  | cons => rfl

private theorem StartsWith.congr {class_ : Char → Bool} {after after' : List Char}
    (starts : StartsWith class_ after) (same : after.head? = after'.head?) :
    StartsWith class_ after' := by
  obtain ⟨c, rest, rfl, member⟩ := starts
  cases after' with
  | nil => simp at same
  | cons d rest' =>
      obtain rfl : c = d := by simpa using same
      exact ⟨c, rest', rfl, member⟩

theorem StartsWithout.congr {class_ : Char → Bool} {after after' : List Char}
    (ends : StartsWithout class_ after) (same : after.head? = after'.head?) :
    StartsWithout class_ after' := by
  unfold StartsWithout
  rw [← same]
  exact ends

theorem StartsWith.without {inside outside : Char → Bool} {text : List Char}
    (starts : StartsWith inside text) (apart : ∀ c, inside c = true → outside c = false) :
    StartsWithout outside text := by
  obtain ⟨c, rest, rfl, member⟩ := starts
  rintro d ⟨⟩
  exact apart c member

mutual

/-- Of the text behind an item only the first character matters. -/
theorem Item.congr_after {line : Int} {text after after' : List Char} {node : Node}
    (derived : Item line text node after) (same : after.head? = after'.head?) :
    Item line text node after' := by
  cases derived with
  | number nonempty decimal short follows =>
      exact .number nonempty decimal short (follows.congr same)
  | string literal => exact .string literal
  | symbol name ends => exact .symbol name (ends.congr same)
  | array items => exact .array (items.congr_after rfl)
  | parenthesised gap leads head items =>
      exact .parenthesised gap leads (head.congr_after (head?_append_congr rfl))
        (items.congr_after rfl)

private theorem Items.congr_after {line : Int} {text after after' : List Char} {nodes : List Node}
    (derived : Items line text nodes after) (same : after.head? = after'.head?) :
    Items line text nodes after' := by
  cases derived with
  | nil gap => exact .nil gap
  | cons gap item items =>
      exact .cons gap (item.congr_after (head?_append_congr same)) (items.congr_after same)

end

/-! ## The first and the last character -/

theorem not_isLineBreak_of_not_endsSymbol {c : Char} (inside : (!endsSymbol c) = true) :
    isLineBreak c = false := by
  cases isBreak : isLineBreak c with
  | false => rfl
  | true =>
      obtain rfl | rfl : c = '\n' ∨ c = '\r' := by simpa [isLineBreak] using isBreak
      all_goals exact absurd inside (by decide)

private theorem endsNumber_eq_false_of_endsSymbol {c : Char} (inside : endsSymbol c = false) :
    endsNumber c = false := by
  cases ends : endsNumber c with
  | false => rfl
  | true => rw [endsSymbol_of_endsNumber ends] at inside; exact inside

theorem endsSymbol_eq_false_of_isDigit {c : Char} (isDigit : c.isDigit = true) :
    endsSymbol c = false := by
  cases ends : endsSymbol c with
  | false => rfl
  | true =>
      simp only [endsSymbol, List.contains_iff_mem, List.mem_cons, List.not_mem_nil, or_false]
        at ends
      rcases ends with rfl | rfl | rfl | rfl | rfl | rfl | rfl | rfl | rfl | rfl <;>
        exact absurd isDigit (by decide)

theorem not_endsSymbol_of_isDigit {c : Char} (isDigit : c.isDigit = true) :
    (!endsSymbol c) = true := by
  rw [endsSymbol_eq_false_of_isDigit isDigit]
  rfl

private theorem endsNumber_eq_false_of_isDigit {c : Char} (isDigit : c.isDigit = true) :
    endsNumber c = false :=
  endsNumber_eq_false_of_endsSymbol (endsSymbol_eq_false_of_isDigit isDigit)

theorem isDigit_eq_false_of_endsNumber {c : Char} (ends : endsNumber c = true) :
    c.isDigit = false := by
  cases isDigit : c.isDigit with
  | false => rfl
  | true => exact absurd (ends.symm.trans (endsNumber_eq_false_of_isDigit isDigit)) nofun

theorem not_isLineBreak_of_isDigit {c : Char} (isDigit : c.isDigit = true) :
    isLineBreak c = false :=
  not_isLineBreak_of_not_endsSymbol (not_endsSymbol_of_isDigit isDigit)

theorem endsSymbol_eq_false_of_mem {name : List Char} (valid : Node.isSymbolName name = true) :
    ∀ c ∈ name, endsSymbol c = false := by
  cases name with
  | nil => simp
  | cons c name =>
      simp only [Node.isSymbolName, Bool.and_eq_true, List.all_eq_true, Bool.not_eq_true'] at valid
      exact valid.2

theorem Item.starts {line : Int} {text after : List Char} {node : Node}
    (derived : Item line text node after) : StartsWith (fun c => !endsNumber c) text := by
  cases derived with
  | number nonempty decimal _ _ =>
      obtain ⟨c, rest, rfl⟩ := List.exists_cons_of_ne_nil nonempty
      have outside := endsNumber_eq_false_of_isDigit (decimal c List.mem_cons_self)
      exact ⟨c, rest, rfl, by simp [outside]⟩
  | string => exact ⟨_, _, rfl, rfl⟩
  | symbol valid _ =>
      cases text with
      | nil => simp [Node.isSymbolName] at valid
      | cons c rest =>
          have inside := endsSymbol_eq_false_of_mem valid c List.mem_cons_self
          exact ⟨c, rest, rfl, by simp [endsNumber_eq_false_of_endsSymbol inside]⟩
  | array => exact ⟨_, _, rfl, rfl⟩
  | parenthesised => exact ⟨_, _, rfl, rfl⟩

theorem Item.ne_nil {line : Int} {text after : List Char} {node : Node}
    (derived : Item line text node after) : text ≠ [] := by
  obtain ⟨c, rest, rfl, -⟩ := derived.starts
  exact List.cons_ne_nil c rest

theorem Item.last_inside {line : Int} {text after : List Char} {node : Node}
    (derived : Item line text node after) : ∀ c ∈ text.getLast?, isLineBreak c = false := by
  intro c last
  cases derived with
  | number _ decimal _ _ =>
      exact not_isLineBreak_of_isDigit (decimal c (List.mem_of_getLast? last))
  | symbol valid _ =>
      have inside := endsSymbol_eq_false_of_mem valid c (List.mem_of_getLast? last)
      exact not_isLineBreak_of_not_endsSymbol (by rw [inside]; rfl)
  | string | array | parenthesised =>
      rw [List.getLast?_concat] at last
      cases last
      rfl

theorem Item.joins {line : Int} {text after : List Char} {node : Node}
    (derived : Item line text node after) (right : List Char) : Joins text right :=
  .of_last derived.last_inside

theorem Item.joins_left {line : Int} {text after : List Char} {node : Node}
    (derived : Item line text node after) (left right : List Char) :
    Joins left (text ++ right) := by
  obtain ⟨c, rest, rfl, outside⟩ := derived.starts
  apply Joins.of_head
  rintro ⟨⟩
  exact absurd outside (by decide)

/-! ## Moving to another line -/

mutual

/-- An item that stands some lines further down is the same item with its lines shifted. -/
theorem Item.shift {line : Int} {text after : List Char} {node : Node}
    (derived : Item line text node after) (count : Int) :
    Item (line + count) text (node.shiftLines count) after := by
  cases derived with
  | number nonempty decimal short follows => exact .number nonempty decimal short follows
  | string literal => exact .string literal
  | symbol name ends => exact .symbol name ends
  | @array _ text _ items derived =>
      have moved := derived.shift count
      rw [← Node.mapLayoutList_eq_map] at moved
      exact .array moved
  | @parenthesised _ gap text arguments _ head tail isGap leads first items =>
      have movedHead := first.shift count
      have movedTail := items.shift count
      rw [Int.add_right_comm] at movedHead
      rw [Int.add_right_comm, Int.add_right_comm line] at movedTail
      rw [← Node.mapLayoutList_eq_map] at movedTail
      exact .parenthesised isGap ((Node.canLead_mapLines _ head).trans leads) movedHead movedTail

private theorem Items.shift {line : Int} {text after : List Char} {nodes : List Node}
    (derived : Items line text nodes after) (count : Int) :
    Items (line + count) text (nodes.map (Node.mapLayout (· + count) id)) after := by
  cases derived with
  | nil gap => exact .nil gap
  | cons gap item items =>
      have movedItem := item.shift count
      have movedItems := items.shift count
      rw [Int.add_right_comm] at movedItem
      rw [Int.add_right_comm, Int.add_right_comm line] at movedItems
      exact .cons gap movedItem movedItems

end

/-! ## Well-formedness -/

mutual

theorem Item.isItem {line : Int} {text after : List Char} {node : Node}
    (derived : Item line text node after) : node.isItem = true := by
  cases derived with
  | number _ decimal short _ =>
      simp only [Node.isItem, Numeral.fits_ofDigits decimal short, Bool.and_true, decide_eq_true_eq]
      exact Int.natCast_nonneg _
  | string => rfl
  | symbol valid _ => simpa only [Node.isItem, String.toList_ofList] using valid
  | array items => exact items.allItems
  | parenthesised _ leads head items =>
      simp [Node.isItem, leads, head.isItem, items.allItems]

private theorem Items.allItems {line : Int} {text after : List Char} {nodes : List Node}
    (derived : Items line text nodes after) : Node.allItems nodes = true := by
  cases derived with
  | nil => rfl
  | cons _ item items => simp [Node.allItems, item.isItem, items.allItems]

end

end IndentLisp.Grammar
