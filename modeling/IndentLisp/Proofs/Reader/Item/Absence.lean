import IndentLisp.Proofs.Reader.Atom
import IndentLisp.Proofs.Reader.Gap
import IndentLisp.Reader.Item

/-!
# Where no item starts

An item is absent exactly before white space, a comment, a line end, a closing bracket or the end of
the text. A reader that finds its subject absent leaves reading where it was.
-/

set_option autoImplicit false

namespace IndentLisp.Reader

open Grammar

/-- The readers of what stands in brackets, which depend on the nesting that is left. -/
def bracketReaders : Nat → List (State → Reply Node)
  | 0 => [refuseBracket]
  | nesting + 1 => [readArray (readItem nesting), readParenthesised (readItem nesting)]

theorem readItem_eq_firstOf (nesting : Nat) :
    readItem nesting =
      firstOf (readNumber :: readString :: (bracketReaders nesting ++ [readSymbol])) := by
  cases nesting <;> rfl

private theorem readItems_ne_absent (item : State → Reply Node) (closer : Char)
    (problem : Nat → Problem) (bound count : Nat) (state next : State) :
    readItems item closer problem bound count state ≠ .absent next := by
  induction bound generalizing count state with
  | zero => nofun
  | succ bound ih =>
      cases result : item state.skipGap with
      | found node middle =>
          simp only [readItems, result, ne_eq, Reply.map_eq_absent_iff]
          exact ih (count + 1) middle
      | failed => simp [readItems, result]
      | absent stop =>
          cases closed : stop.take? closer with
          | none => simp [readItems, result, closed, State.refuse]
          | some => simp [readItems, result, closed]

section

variable {item : State → Reply Node} {state next : State}

theorem readArray_eq_absent_iff :
    readArray item state = .absent next ↔ next = state ∧ StartsWithout (· == '[') state.rest := by
  rw [← take?_eq_none_iff]
  cases opened : state.take? '[' with
  | none => simp [readArray, opened, eq_comm]
  | some inside =>
      simp [readArray, opened, Reply.map_eq_absent_iff, readItems_ne_absent]

theorem readParenthesised_eq_absent_iff :
    readParenthesised item state = .absent next ↔
      next = state ∧ StartsWithout (· == '(') state.rest := by
  rw [← take?_eq_none_iff]
  cases opened : state.take? '(' with
  | none => simp [readParenthesised, opened, eq_comm]
  | some inside =>
      cases head : readHead item inside.skipGap with
      | found =>
          simp [readParenthesised, opened, head, Reply.map_eq_absent_iff, readItems_ne_absent]
      | absent => simp [readParenthesised, opened, head, State.refuse]
      | failed => simp [readParenthesised, opened, head]

theorem refuseBracket_eq_absent_iff :
    refuseBracket state = .absent next ↔
      next = state ∧ StartsWithout (· == '[') state.rest ∧ StartsWithout (· == '(') state.rest := by
  unfold refuseBracket
  split
  · next same => simp [same, State.refuse, StartsWithout]
  · next same => simp [same, State.refuse, StartsWithout]
  · next noArray noParenthesis =>
    have array : StartsWithout (· == '[') state.rest := by
      intro c first
      obtain ⟨rest, same⟩ := List.head?_eq_some_iff.mp first
      simpa using fun isOpen : c = '[' => noArray rest (isOpen ▸ same)
    have parenthesis : StartsWithout (· == '(') state.rest := by
      intro c first
      obtain ⟨rest, same⟩ := List.head?_eq_some_iff.mp first
      simpa using fun isOpen : c = '(' => noParenthesis rest (isOpen ▸ same)
    simp [array, parenthesis, eq_comm]

theorem bracketReaders_absent_iff {nesting : Nat} :
    (∀ reader ∈ bracketReaders nesting, reader state = .absent state) ↔
      StartsWithout (· == '[') state.rest ∧ StartsWithout (· == '(') state.rest := by
  cases nesting with
  | zero => simp [bracketReaders, refuseBracket_eq_absent_iff]
  | succ nesting =>
      simp [bracketReaders, readArray_eq_absent_iff, readParenthesised_eq_absent_iff]

end

/-! ## Readers that decline -/

theorem keepsPlace_readNumber : KeepsPlace readNumber :=
  fun absent => (readNumber_eq_absent_iff.mp absent).1

private theorem keepsPlace_of_mem_bracketReaders {nesting : Nat} {reader : State → Reply Node}
    (member : reader ∈ bracketReaders nesting) : KeepsPlace reader := by
  intro state next absent
  cases nesting with
  | zero =>
      rw [List.mem_singleton.mp member] at absent
      exact (refuseBracket_eq_absent_iff.mp absent).1
  | succ nesting =>
      simp only [bracketReaders, List.mem_cons, List.not_mem_nil, or_false] at member
      rcases member with rfl | rfl
      · exact (readArray_eq_absent_iff.mp absent).1
      · exact (readParenthesised_eq_absent_iff.mp absent).1

theorem keepsPlace_readers (nesting : Nat) :
    ∀ reader ∈ readNumber :: readString :: (bracketReaders nesting ++ [readSymbol]),
      KeepsPlace reader := by
  simp only [List.forall_mem_cons, List.forall_mem_append, List.not_mem_nil, false_imp_iff,
    implies_true, and_true]
  exact ⟨keepsPlace_readNumber, fun absent => (readString_eq_absent_iff.mp absent).1,
    fun _ => keepsPlace_of_mem_bracketReaders, fun absent => (readSymbol_eq_absent_iff.mp absent).1⟩

/-- What holds of the replies of all readers, and where nothing is found, holds of the reply of the
first of them that does not find its subject absent. -/
theorem firstOf_of_forall {α : Type} {holds : Reply α → Prop} {readers : List (State → Reply α)}
    {state : State} (keep : ∀ reader ∈ readers, KeepsPlace reader) (absent : holds (.absent state))
    (each : ∀ reader ∈ readers, holds (reader state)) : holds (firstOf readers state) := by
  induction readers with
  | nil => exact absent
  | cons reader readers ih =>
      obtain ⟨first, others⟩ := List.forall_mem_cons.mp each
      obtain ⟨keeps, keep⟩ := List.forall_mem_cons.mp keep
      rw [firstOf]
      cases result : reader state with
      | absent next =>
          obtain rfl := keeps result
          exact ih keep others
      | found | failed =>
          rw [result] at first
          exact first

/-- Induction on the nesting that is left: what holds of the readers of tokens, and of the readers
of brackets if it holds of that of the items inside, holds of the reader of items. -/
theorem readItem_induction {motive : (State → Reply Node) → Prop}
    (firstOf : ∀ readers, (∀ reader ∈ readers, KeepsPlace reader) →
      (∀ reader ∈ readers, motive reader) → motive (firstOf readers))
    (number : motive readNumber) (string : motive readString) (refused : motive refuseBracket)
    (symbol : motive readSymbol)
    (array : ∀ nesting, motive (readItem nesting) → motive (readArray (readItem nesting)))
    (parenthesised : ∀ nesting, motive (readItem nesting) →
      motive (readParenthesised (readItem nesting)))
    (nesting : Nat) : motive (readItem nesting) := by
  induction nesting with
  | zero =>
      refine firstOf _ (keepsPlace_readers 0) fun reader member => ?_
      simp only [List.mem_cons, List.not_mem_nil, or_false] at member
      rcases member with rfl | rfl | rfl | rfl
      · exact number
      · exact string
      · exact refused
      · exact symbol
  | succ nesting ih =>
      refine firstOf _ (keepsPlace_readers (nesting + 1)) fun reader member => ?_
      simp only [List.mem_cons, List.not_mem_nil, or_false] at member
      rcases member with rfl | rfl | rfl | rfl | rfl
      · exact number
      · exact string
      · exact array nesting ih
      · exact parenthesised nesting ih
      · exact symbol

theorem firstOf_eq_found {α : Type} {readers : List (State → Reply α)} {state next : State}
    {value : α} (absent : ∀ reader ∈ readers, reader state = .absent state)
    {reader : State → Reply α} (found : reader state = .found value next)
    (others : List (State → Reply α)) :
    firstOf (readers ++ reader :: others) state = .found value next := by
  induction readers with
  | nil => simp [firstOf, found]
  | cons first readers ih =>
      rw [List.cons_append, firstOf, absent first List.mem_cons_self]
      exact ih fun later member => absent later (List.mem_cons_of_mem first member)

/-- The characters that start no atom and no bracket are those that may follow a number. -/
private theorem endsNumber_iff {c : Char} :
    endsNumber c = true ↔
      c.isDigit = false ∧ (c == '\'') = false ∧ ((c == '[') = false ∧ (c == '(') = false) ∧
        (!endsSymbol c) = false := by
  constructor
  · intro ends
    simp only [endsNumber, List.contains_iff_mem, List.mem_cons, List.not_mem_nil, or_false] at ends
    rcases ends with rfl | rfl | rfl | rfl | rfl | rfl | rfl <;> decide
  · intro classes
    obtain ⟨-, noQuote, ⟨noArray, noParenthesis⟩, ends⟩ := classes
    simp only [beq_eq_false_iff_ne, ne_eq] at noQuote noArray noParenthesis
    simp only [Bool.not_eq_false', endsSymbol, List.contains_iff_mem, List.mem_cons] at ends
    simp only [endsNumber, List.contains_iff_mem, List.mem_cons]
    rcases ends with rfl | rfl | rfl | other
    · exact absurd rfl noArray
    · exact absurd rfl noQuote
    · exact absurd rfl noParenthesis
    · exact other

theorem readItem_eq_absent_iff {nesting : Nat} {state next : State} :
    readItem nesting state = .absent next ↔
      next = state ∧ StartsWithout (fun c => !endsNumber c) state.rest := by
  have classes : StartsWithout (fun c => !endsNumber c) state.rest ↔
      StartsWithout Char.isDigit state.rest ∧ StartsWithout (· == '\'') state.rest ∧
        (StartsWithout (· == '[') state.rest ∧ StartsWithout (· == '(') state.rest) ∧
        StartsWithout (fun c => !endsSymbol c) state.rest := by
    cases first : state.rest.head? with
    | none => simp [StartsWithout, first]
    | some c => simpa [StartsWithout, first] using endsNumber_iff
  rw [classes, readItem_eq_firstOf, firstOf_eq_absent_iff (keepsPlace_readers nesting)]
  simp only [List.forall_mem_cons, List.forall_mem_append, bracketReaders_absent_iff,
    readNumber_eq_absent_iff, readString_eq_absent_iff, readSymbol_eq_absent_iff, true_and,
    List.not_mem_nil, false_imp_iff, implies_true, and_true]

theorem keepsPlace_readItem (nesting : Nat) : KeepsPlace (readItem nesting) :=
  fun absent => (readItem_eq_absent_iff.mp absent).1

end IndentLisp.Reader
