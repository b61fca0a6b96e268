import IndentLisp.Proofs.Grammar
import IndentLisp.Reader.Space

/-!
# Reading on

A reader that reads a text leaves the rest of the text, counts the line ends of what it read, and
keeps the level. White space, comments and gaps are read in this way, and a gap is read to its end.
-/

set_option autoImplicit false

namespace IndentLisp.Reader

open Grammar

/-- Reading on from the first state, past the text, leads to the second one. -/
structure Advances (state : State) (text : List Char) (next : State) : Prop where
  rest : state.rest = text ++ next.rest
  line : next.line = state.line + lineEnds text
  level : next.level = state.level

theorem Advances.refl (state : State) : Advances state [] state :=
  ⟨rfl, by simp, rfl⟩

theorem Advances.trans {first second third : State} {left right : List Char}
    (before : Advances first left second) (after : Advances second right third)
    (joins : Joins left right) : Advances first (left ++ right) third where
  rest := by rw [before.rest, after.rest, List.append_assoc]
  line := by rw [after.line, before.line, lineEnds_append joins, Int.natCast_add, Int.add_assoc]
  level := after.level.trans before.level

theorem Advances.state_eq {state next : State} {text : List Char}
    (advances : Advances state text next) :
    state = ⟨text ++ next.rest, state.line, state.level⟩ := by
  rw [← advances.rest]

theorem Advances.next_eq {state next : State} {text : List Char}
    (advances : Advances state text next) :
    next = ⟨next.rest, state.line + lineEnds text, state.level⟩ := by
  rw [← advances.line, ← advances.level]

/-- Where a text is known to be read as a whole, what a reader finds there is determined. -/
theorem Advances.of_complete {α : Type} {reader : State → Reply α} {state next : State}
    {text : List Char} {value other : α} (found : reader state = .found value next)
    (split : state.rest = text ++ next.rest)
    (complete : reader ⟨text ++ next.rest, state.line, state.level⟩ =
      .found other ⟨next.rest, state.line + lineEnds text, state.level⟩) :
    value = other ∧ Advances state text next := by
  rw [← split] at complete
  obtain ⟨same, sameState⟩ := Reply.found.inj (found.symm.trans complete)
  exact ⟨same, split, by rw [sameState], by rw [sameState]⟩

theorem take?_eq_some_iff {state next : State} {c : Char} :
    state.take? c = some next ↔
      state.rest = c :: next.rest ∧ next = { state with rest := next.rest } := by
  obtain ⟨text, line, level⟩ := state
  cases text with
  | nil => simp [State.take?]
  | cons d rest =>
      by_cases same : d = c
      · subst same
        simp only [State.take?, ↓reduceIte, Option.some.injEq, List.cons.injEq, true_and]
        constructor
        · rintro rfl
          exact ⟨rfl, rfl⟩
        · rintro ⟨rfl, same⟩
          exact same.symm
      · simp [State.take?, same]

theorem take?_eq_none_iff {state : State} {c : Char} :
    state.take? c = none ↔ StartsWithout (· == c) state.rest := by
  obtain ⟨text, line, level⟩ := state
  cases text with
  | nil => simp [State.take?, StartsWithout]
  | cons d rest => simp [State.take?, StartsWithout]

theorem line_eq_of_take? {state next : State} {c : Char} (taken : state.take? c = some next) :
    next.line = state.line := by
  rw [(take?_eq_some_iff.mp taken).2]

theorem Advances.of_take? {state next : State} {c : Char} (taken : state.take? c = some next)
    (inside : isLineBreak c = false) : Advances state [c] next := by
  obtain ⟨split, same⟩ := take?_eq_some_iff.mp taken
  exact ⟨split, by rw [same, lineEnds_cons_of_inside inside]; simp, by rw [same]⟩

/-! ## White space -/

theorem not_isLineBreak_of_isSpace {c : Char} (space : isSpace c = true) :
    isLineBreak c = false := by
  obtain rfl | rfl : c = ' ' ∨ c = '\t' := by simpa [isSpace] using space
  all_goals rfl

theorem skipSpace_advances (state : State) :
    ∃ spaces, (∀ c ∈ spaces, isSpace c = true) ∧ Advances state spaces state.skipSpace := by
  have spaces : ∀ c ∈ state.rest.takeWhile isSpace, isSpace c = true :=
    List.all_eq_true.mp List.all_takeWhile
  refine ⟨state.rest.takeWhile isSpace, spaces, ?_⟩
  have split : state.rest.takeWhile isSpace ++ state.rest.dropWhile isSpace = state.rest :=
    List.takeWhile_append_dropWhile
  have inside : ∀ c ∈ state.rest.takeWhile isSpace, isLineBreak c = false :=
    fun c member => not_isLineBreak_of_isSpace (spaces c member)
  exact ⟨split.symm, by simp [State.skipSpace, lineEnds_eq_zero_of_inside inside], rfl⟩

theorem skipSpace_append {spaces after : List Char} (blank : ∀ c ∈ spaces, isSpace c = true)
    (solid : StartsWithout isSpace after) (line level : Int) :
    State.skipSpace ⟨spaces ++ after, line, level⟩ = ⟨after, line, level⟩ := by
  have stays : after.dropWhile isSpace = after := by
    cases after with
    | nil => rfl
    | cons c after => exact List.dropWhile_cons_of_neg (by simp [solid c rfl])
  rw [State.skipSpace, List.dropWhile_append_of_pos blank, stays]

theorem skipSpace_eq_self {state : State} (solid : StartsWithout isSpace state.rest) :
    state.skipSpace = state :=
  skipSpace_append (List.forall_mem_nil _) solid state.line state.level

theorem skipSpace_cons {c : Char} (space : isSpace c = true) (rest : List Char)
    (line level : Int) :
    State.skipSpace ⟨c :: rest, line, level⟩ = State.skipSpace ⟨rest, line, level⟩ := by
  rw [State.skipSpace, List.dropWhile_cons_of_pos space]
  rfl

end IndentLisp.Reader
