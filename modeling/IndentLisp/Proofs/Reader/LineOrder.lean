import IndentLisp.Node.Preorder
import IndentLisp.Proofs.Node.WellFormed
import IndentLisp.Proofs.Reader.Phrase

/-!
# The order of lines

Along a derived item or phrase the lines of the nodes never fall, and they stay between the line on
which the text starts and the line on which it ends. Expressions and blocks begin where they should.
-/

set_option autoImplicit false

namespace IndentLisp

open Grammar Reader

/-- The lines never fall, and they stay between the bounds. -/
def Climbs (low high : Int) : List Int → Prop
  | [] => low ≤ high
  | line :: lines => low ≤ line ∧ Climbs line high lines

namespace Climbs

variable {low low' middle high high' : Int} {lines left right : List Int}

theorem mono (climbs : Climbs low high lines) (lower : low' ≤ low) (higher : high ≤ high') :
    Climbs low' high' lines := by
  induction lines generalizing low low' with
  | nil => exact Int.le_trans lower (Int.le_trans climbs higher)
  | cons line lines ih => exact ⟨Int.le_trans lower climbs.1, ih climbs.2 (Int.le_refl line)⟩

theorem append (first : Climbs low middle left) (second : Climbs middle high right) :
    Climbs low high (left ++ right) := by
  induction left generalizing low with
  | nil => exact second.mono first (Int.le_refl high)
  | cons line left ih => exact ⟨first.1, ih first.2⟩

theorem append_congr (climbs : Climbs low high (left ++ lines))
    (further : ∀ {low}, Climbs low high lines → Climbs low high right) :
    Climbs low high (left ++ right) := by
  induction left generalizing low with
  | nil => exact further climbs
  | cons line left ih => exact ⟨climbs.1, ih climbs.2⟩

private theorem le_of_mem (climbs : Climbs low high lines) : ∀ line ∈ lines, low ≤ line := by
  induction lines generalizing low with
  | nil => nofun
  | cons first lines ih =>
      intro line member
      rcases List.mem_cons.mp member with rfl | later
      · exact climbs.1
      · exact Int.le_trans climbs.1 (ih climbs.2 line later)

theorem pairwise (climbs : Climbs low high lines) : lines.Pairwise (· ≤ ·) := by
  induction lines generalizing low with
  | nil => exact .nil
  | cons line lines ih => exact .cons climbs.2.le_of_mem (ih climbs.2)

end Climbs

namespace Reader

variable {line : Int} {text after : List Char}

theorem Item.line_eq {node : Node} (derived : Item line text node after) : node.line = line := by
  cases derived <;> rfl

private theorem climbs_nil (line : Int) (text : List Char) :
    Climbs line (line + lineEnds text) [] :=
  Int.le_add_of_nonneg_right (Int.natCast_nonneg _)

mutual

/-- The nodes of a derived item are on the lines of its text, from the first to the last. -/
private theorem climbs_item {line : Int} {text after : List Char} {node : Node}
    (derived : Item line text node after) : Climbs line (line + lineEnds text) node.lines := by
  cases derived with
  | number | symbol | string => exact ⟨Int.le_refl line, climbs_nil line _⟩
  | @array _ text _ items derived =>
      have inner := climbs_items derived
      rw [List.cons_append, lineEnds_cons_of_inside rfl, lineEnds_append_closer rfl]
      exact ⟨Int.le_refl line, inner⟩
  | @parenthesised _ gap text arguments _ head tail isGap _ first derived =>
      have inner := (climbs_item first).append (climbs_items derived)
      have count : lineEnds (gap ++ text ++ arguments) =
          lineEnds gap + lineEnds text + lineEnds arguments := lineEnds_items first arguments
      rw [List.cons_append, List.cons_append, List.cons_append, lineEnds_cons_of_inside rfl,
        lineEnds_append_closer rfl, Node.lines_expression, count]
      exact ⟨Int.le_refl line, inner.mono (climbs_nil line gap) (by omega)⟩

private theorem climbs_items {line : Int} {text after : List Char} {nodes : List Node}
    (derived : Items line text nodes after) :
    Climbs line (line + lineEnds text) (Node.linesList nodes) := by
  cases derived with
  | nil => exact climbs_nil line text
  | @cons _ gap text rest _ node nodes isGap item items =>
      have inner := (climbs_item item).append (climbs_items items)
      rw [Node.linesList_cons, lineEnds_items item]
      exact inner.mono (climbs_nil line gap) (by omega)

end

private theorem climbs_arguments {nodes : List Node} (derived : Arguments line text nodes after) :
    Climbs line (line + lineEnds text) (Node.linesList nodes) := by
  induction derived with
  | nil => exact climbs_nil _ _
  | @cons line spaces text rest after node nodes blank item _ ih =>
      rw [Node.linesList_cons, lineEnds_arguments blank item, Int.natCast_add, ← Int.add_assoc]
      exact (climbs_item item).append ih

theorem climbs_phrase {phrase : Phrase} (written : WrittenPhrase line text phrase after) :
    Climbs line (line + lineEnds text) phrase.toNode.lines := by
  cases written with
  | @mk text rest _ head arguments _ item derived =>
      rw [Phrase.toNode, Node.lines_expression, lineEnds_append (item.joins _), Int.natCast_add,
        ← Int.add_assoc]
      exact ⟨Int.le_refl line, (climbs_item item).append (climbs_arguments derived)⟩

/-! ## Where nodes begin -/

def AllBeginInside (nodes : List Node) : Prop :=
  ∀ node ∈ Node.preorderList nodes, node.beginsInside

theorem allBeginInside_cons_iff {node : Node} {nodes : List Node} :
    AllBeginInside (node :: nodes) ↔
      (∀ inner ∈ node.preorder, inner.beginsInside) ∧ AllBeginInside nodes := by
  rw [AllBeginInside, Node.preorderList, List.forall_mem_append]
  rfl

theorem allBeginInside_append_iff {left right : List Node} :
    AllBeginInside (left ++ right) ↔ AllBeginInside left ∧ AllBeginInside right := by
  rw [AllBeginInside, Node.preorderList_append, List.forall_mem_append]
  rfl

mutual

theorem beginsInside_of_isItem {node : Node} (valid : node.isItem = true) :
    ∀ inner ∈ node.preorder, inner.beginsInside := by
  cases node with
  | block | unknown => cases valid
  | symbol | number | string => exact List.forall_mem_singleton.mpr trivial
  | array items =>
      exact List.forall_mem_cons.mpr ⟨trivial, allBeginInside_of_allItems valid⟩
  | expression head tail lineForm =>
      obtain ⟨form, -, first, others⟩ := Node.isItem_expression_iff.mp valid
      refine List.forall_mem_cons.mpr ⟨fun isLine => ?_, List.forall_mem_append.mpr
        ⟨beginsInside_of_isItem first, allBeginInside_of_allItems others⟩⟩
      rw [form] at isLine
      cases isLine

theorem allBeginInside_of_allItems {nodes : List Node} (valid : Node.allItems nodes = true) :
    AllBeginInside nodes := by
  cases nodes with
  | nil => nofun
  | cons node nodes =>
      obtain ⟨first, others⟩ := Node.allItems_cons_iff.mp valid
      exact allBeginInside_cons_iff.mpr
        ⟨beginsInside_of_isItem first, allBeginInside_of_allItems others⟩

end

end Reader

end IndentLisp
