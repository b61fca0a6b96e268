import IndentLisp.Proofs.Reader.Item.Completeness
import IndentLisp.Proofs.Reader.Item.Soundness

/-!
# Recognising items in a text

At every place of a text that ends in a line feed, the reader of items finds what the grammar
derives there, and nothing else. An item is absent only where the text ends or goes on with a
character that no item starts with.
-/

set_option autoImplicit false

namespace IndentLisp.Reader

open Grammar

/-- The reader finds an item exactly where the grammar derives it. -/
private theorem readItem_eq_found_iff {nesting : Nat} {state next : State} {node : Node}
    (ended : Ended state.rest) :
    readItem nesting state = .found node next ↔
      ∃ text, Advances state text next ∧ Item state.line text node next.rest ∧
        node.nesting ≤ nesting := by
  constructor
  · exact readItem_sound nesting ended
  · intro derivable
    obtain ⟨text, advances, derived, within⟩ := derivable
    rw [advances.state_eq, advances.next_eq]
    exact readItem_of_item derived within state.level

private theorem ended_drop {text : List Char} (ended : text.getLast? = some '\n') (cursor : Nat) :
    Ended (text.drop cursor) := by
  intro c last
  rw [List.getLast?_drop, ended] at last
  split at last
  · cases last
  · exact (Option.some.inj last).symm

/-- Reading on from a place of a text leads to a later place. -/
private theorem Advances.exists_stop {text word : List Char} {cursor : Nat} {line level : Int}
    {next : State} (advances : Advances ⟨text.drop cursor, line, level⟩ word next)
    (some : word ≠ []) :
    ∃ stop, cursor ≤ stop ∧ stop ≤ text.length ∧ word = text.extract cursor stop ∧
      next.rest = text.drop stop := by
  have split : text.drop cursor = word ++ next.rest := advances.rest
  have long := congrArg List.length split
  have positive := List.length_pos_iff.mpr some
  rw [List.length_drop, List.length_append] at long
  refine ⟨cursor + word.length, Nat.le_add_right _ _, by omega, ?_, ?_⟩
  · rw [List.extract_eq_take_drop, Nat.add_sub_cancel_left, split, List.take_left]
  · rw [← List.drop_drop, split, List.drop_left]

private theorem drop_eq_extract_append (text : List Char) {cursor stop : Nat}
    (ordered : cursor ≤ stop) :
    text.drop cursor = text.extract cursor stop ++ text.drop stop := by
  have later : text.drop stop = (text.drop cursor).drop (stop - cursor) := by
    rw [List.drop_drop, Nat.add_sub_cancel' ordered]
  rw [later, List.extract_eq_take_drop, List.take_append_drop]

private theorem startsWithout_drop_iff {text : List Char} {cursor : Nat} {class_ : Char → Bool} :
    StartsWithout class_ (text.drop cursor) ↔
      text.length ≤ cursor ∨ ∃ c, text[cursor]? = some c ∧ class_ c = false := by
  rw [StartsWithout, List.head?_drop]
  cases found : text[cursor]? with
  | none => simp [List.getElem?_eq_none_iff.mp found]
  | some c =>
      have inside : ¬ text.length ≤ cursor := by
        intro outside
        rw [List.getElem?_eq_none_iff.mpr outside] at found
        cases found
      simp [inside]

/-- At every place of a text that ends in a line feed, an item is found exactly where the grammar
derives it, and it is absent exactly where the text ends or where no item can start; then nothing
has been read. -/
theorem readItem_recognises {text : List Char} (ended : text.getLast? = some '\n')
    (cursor nesting : Nat) (line level : Int) :
    (∀ (node : Node) (next : State),
      readItem nesting ⟨text.drop cursor, line, level⟩ = .found node next ↔
        ∃ stop, cursor ≤ stop ∧ stop ≤ text.length ∧
          next = ⟨text.drop stop, line + lineEnds (text.extract cursor stop), level⟩ ∧
          Item line (text.extract cursor stop) node (text.drop stop) ∧ node.nesting ≤ nesting) ∧
    ∀ next : State,
      readItem nesting ⟨text.drop cursor, line, level⟩ = .absent next ↔
        next = ⟨text.drop cursor, line, level⟩ ∧
          (text.length ≤ cursor ∨
            ∃ c, text[cursor]? = some c ∧ c ∈ [' ', ']', ';', ')', '\t', '\r', '\n']) := by
  constructor
  · intro node next
    rw [readItem_eq_found_iff (ended_drop ended cursor)]
    constructor
    · intro found
      obtain ⟨word, advances, derived, within⟩ := found
      obtain ⟨stop, ordered, inside, rfl, rest⟩ := advances.exists_stop derived.ne_nil
      have last := advances.next_eq
      rw [rest] at last derived
      exact ⟨stop, ordered, inside, last, derived, within⟩
    · intro derivable
      obtain ⟨stop, ordered, -, rfl, derived, within⟩ := derivable
      refine ⟨_, ⟨drop_eq_extract_append text ordered, rfl, rfl⟩, derived, within⟩
  · intro next
    rw [readItem_eq_absent_iff, startsWithout_drop_iff]
    simp only [Bool.not_eq_false', endsNumber, List.contains_iff_mem]

theorem readItem_recognises_digit :
    ['a', ' ', '1', ']', '\n'].getLast? = some '\n' ∧
      readItem 0 ⟨['a', ' ', '1', ']', '\n'].drop 1, 1, -1⟩ =
        .absent ⟨[' ', '1', ']', '\n'], 1, -1⟩ ∧
      ∃ stop, 2 ≤ stop ∧ stop ≤ 5 ∧
        Item 1 (['a', ' ', '1', ']', '\n'].extract 2 stop) (.number 1 1)
          (['a', ' ', '1', ']', '\n'].drop stop) := by
  have ended : ['a', ' ', '1', ']', '\n'].getLast? = some '\n' := rfl
  have blank := ((readItem_recognises ended 1 0 1 (-1)).2 ⟨[' ', '1', ']', '\n'], 1, -1⟩).mpr
    ⟨rfl, .inr ⟨' ', rfl, by decide⟩⟩
  have digit := ((readItem_recognises ended 2 0 1 (-1)).1 (.number 1 1) ⟨[']', '\n'], 1, -1⟩).mp rfl
  obtain ⟨stop, ordered, inside, -, derived, -⟩ := digit
  exact ⟨ended, blank, stop, ordered, inside, derived⟩

end IndentLisp.Reader
