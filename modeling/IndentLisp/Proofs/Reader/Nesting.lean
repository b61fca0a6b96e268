import IndentLisp.Proofs.Reader.Stops

/-!
# What the limit on nesting changes

With less nesting left, a reader of items or phrases replies as it does with more, or it refuses the
text as nested too deep. It stops no later then.
-/

set_option autoImplicit false

namespace IndentLisp.Reader

/-- A reply that is given with less nesting left than the full one: it is the same, or it refuses a
bracket as nested too deep, no later than where the full one stops. -/
inductive Reply.CutsTo {α : Type} (full : Reply α) : Reply α → Prop where
  | same : CutsTo full full
  | tooDeep {stop : State} :
      stop.line ≤ full.stop.line → CutsTo full (.failed (.problem .tooDeep) stop)

namespace Reply.CutsTo

variable {α β : Type} {full short : Reply α}

private theorem map {f : α → β} (cut : full.CutsTo short) : (full.map f).CutsTo (short.map f) := by
  cases cut with
  | same => exact .same
  | tooDeep before => exact .tooDeep (by cases full <;> exact before)

private theorem bind {goOn goOn' : α → State → Reply β} (cut : full.CutsTo short)
    (further : ∀ value next, full = .found value next →
      (goOn value next).CutsTo (goOn' value next) ∧ next.line ≤ (goOn value next).stop.line) :
    (full.bind goOn).CutsTo (short.bind goOn') := by
  cases full with
  | found value next =>
      obtain ⟨rest, forward⟩ := further value next rfl
      cases cut with
      | same => exact rest
      | tooDeep before => exact .tooDeep (Int.le_trans before forward)
  | absent | failed =>
      cases cut with
      | same => exact .same
      | tooDeep before => exact .tooDeep before

end Reply.CutsTo

private theorem Reply.Reaches.line_le {α : Type} {state : State} {reply : Reply α}
    (reaches : reply.Reaches state) : state.line ≤ reply.stop.line := by
  cases reaches with
  | found passes | failed passes => exact passes.line_le

theorem Reply.Stops.line_le {α : Type} {state : State} {reply : Reply α}
    (stops : reply.Stops state) : state.line ≤ reply.stop.line := by
  cases stops with
  | absent => exact Int.le_refl _
  | reaches reaches => exact reaches.line_le

/-- A reader of items and one with less nesting left. -/
structure CutsItems (full short : State → Reply Node) : Prop where
  stops (state : State) : (full state).Stops state
  cuts (state : State) : (full state).CutsTo (short state)

section

variable {full short : State → Reply Node} (items : CutsItems full short)

include items

private theorem readItems_cutsTo {closer : Char} (closes : isLineBreak closer = false)
    (problem : Nat → Problem) (bound count : Nat) (state : State) :
    (readItems full closer problem bound count state).CutsTo
      (readItems short closer problem bound count state) := by
  induction bound generalizing count state with
  | zero => exact .same
  | succ bound ih =>
      have whole := readItems_reaches_skipGap items.stops closes problem (bound + 1) count state
      have stops := items.stops state.skipGap
      have cuts := items.cuts state.skipGap
      rw [readItems] at whole
      rw [readItems, readItems]
      generalize short state.skipGap = first at cuts
      cases result : full state.skipGap with
      | found node next =>
          rw [result] at cuts
          have rest := readItems_reaches items.stops closes problem bound (count + 1) next
          cases cuts with
          | same => exact (ih (count + 1) next).map
          | tooDeep before => exact .tooDeep (Int.le_trans before rest.map.line_le)
      | failed failure stop =>
          rw [result] at cuts
          cases cuts with
          | same => exact .same
          | tooDeep before => exact .tooDeep before
      | absent stop =>
          rw [result] at whole stops cuts
          cases stops with
          | reaches reaches => cases reaches
          | absent =>
              cases cuts with
              | same => exact .same
              | tooDeep before => exact .tooDeep (Int.le_trans before whole.line_le)

private theorem readHead_cutsTo (state : State) :
    (readHead full state).CutsTo (readHead short state) := by
  refine (items.cuts state).bind fun node next _ => ⟨.same, ?_⟩
  cases headProblem? node <;> exact Int.le_refl _

private theorem cutsItems_readArray : CutsItems (readArray full) (readArray short) where
  stops := readArray_stops items.stops
  cuts state := by
    rw [readArray, readArray]
    cases state.take? '[' with
    | none => exact .same
    | some inside => exact (readItems_cutsTo items rfl .arrayItems _ _ _).map

private theorem cutsItems_readParenthesised :
    CutsItems (readParenthesised full) (readParenthesised short) where
  stops := readParenthesised_stops items.stops
  cuts state := by
    cases taken : state.take? '(' with
    | none =>
        simp only [readParenthesised, taken]
        exact .same
    | some inside =>
        have cuts := readHead_cutsTo items inside.skipGap
        simp only [readParenthesised, taken]
        generalize readHead short inside.skipGap = first at cuts
        cases result : readHead full inside.skipGap with
        | found head next =>
            have closes : isLineBreak ')' = false := rfl
            have rest := readItems_reaches items.stops closes .arguments next.rest.length 0 next
            rw [result] at cuts
            cases cuts with
            | same => exact (readItems_cutsTo items rfl .arguments _ _ _).map
            | tooDeep before => exact .tooDeep (Int.le_trans before rest.map.line_le)
        | failed | absent =>
            rw [result] at cuts
            cases cuts with
            | same => exact .same
            | tooDeep before => exact .tooDeep before

end

private theorem CutsItems.refl {item : State → Reply Node}
    (stops : ∀ state, (item state).Stops state) :
    CutsItems item item where
  stops := stops
  cuts _ := .same

private theorem CutsItems.nil : CutsItems (firstOf []) (firstOf []) := .refl fun _ => .absent

private theorem CutsItems.cons {full short : State → Reply Node}
    {fulls shorts : List (State → Reply Node)}
    (first : CutsItems full short) (others : CutsItems (firstOf fulls) (firstOf shorts)) :
    CutsItems (firstOf (full :: fulls)) (firstOf (short :: shorts)) where
  stops state := by
    have stops := first.stops state
    rw [firstOf]
    cases result : full state with
    | found | failed => rwa [result] at stops
    | absent next =>
        rw [result] at stops
        cases stops with
        | reaches reaches => cases reaches
        | absent => exact others.stops state
  cuts state := by
    have stops := first.stops state
    have cuts := first.cuts state
    rw [firstOf, firstOf]
    generalize short state = reply at cuts
    cases result : full state with
    | found | failed =>
        rw [result] at cuts
        cases cuts with
        | same => exact .same
        | tooDeep before => exact .tooDeep before
    | absent next =>
        rw [result] at stops cuts
        cases stops with
        | reaches reaches => cases reaches
        | absent =>
            cases cuts with
            | same => exact others.cuts state
            | tooDeep before => exact .tooDeep (Int.le_trans before (others.stops state).line_le)

private theorem refuseBracket_cases (state : State) :
    refuseBracket state = .absent state ∨ refuseBracket state = state.refuse .tooDeep := by
  unfold refuseBracket
  split
  · exact .inr rfl
  · exact .inr rfl
  · exact .inl rfl

/-- Where no bracket may be opened, it is refused at once. -/
private theorem cutsItems_refuseBracket (nesting : Nat) :
    CutsItems
      (firstOf [readArray (readItem nesting), readParenthesised (readItem nesting), readSymbol])
      (firstOf [refuseBracket, readSymbol]) := by
  have array := CutsItems.refl (readArray_stops (readItem_stops nesting))
  have parenthesised := CutsItems.refl (readParenthesised_stops (readItem_stops nesting))
  have symbol := CutsItems.refl readSymbol_stops
  have stops := (array.cons (parenthesised.cons (symbol.cons .nil))).stops
  refine ⟨stops, fun state => ?_⟩
  rcases refuseBracket_cases state with absent | refused
  · obtain ⟨-, noArray, noParenthesis⟩ := refuseBracket_eq_absent_iff.mp absent
    have noArray : readArray (readItem nesting) state = .absent state :=
      readArray_eq_absent_iff.mpr ⟨rfl, noArray⟩
    have noParenthesis : readParenthesised (readItem nesting) state = .absent state :=
      readParenthesised_eq_absent_iff.mpr ⟨rfl, noParenthesis⟩
    simp only [firstOf, absent, noArray, noParenthesis]
    exact .same
  · simp only [firstOf, refused, State.refuse]
    exact .tooDeep (stops state).line_le

private theorem readItem_cuts {nesting nesting' : Nat} (fewer : nesting' ≤ nesting) :
    CutsItems (readItem nesting) (readItem nesting') := by
  have number := CutsItems.refl readNumber_stops
  have string := CutsItems.refl readString_stops
  have symbol := CutsItems.refl readSymbol_stops
  induction nesting' generalizing nesting with
  | zero =>
      obtain _ | nesting := nesting
      · exact .refl (readItem_stops 0)
      · exact number.cons (string.cons (cutsItems_refuseBracket nesting))
  | succ nesting' ih =>
      obtain _ | nesting := nesting
      · cases fewer
      · have inner := ih (Nat.le_of_succ_le_succ fewer)
        have brackets := (cutsItems_readParenthesised inner).cons (symbol.cons .nil)
        exact number.cons (string.cons ((cutsItems_readArray inner).cons brackets))

/-! ## Phrases -/

private theorem arguments_cutsTo {nesting nesting' : Nat} (fewer : nesting' ≤ nesting)
    (state : State) :
    (arguments nesting state).CutsTo (arguments nesting' state) := by
  induction long : state.rest.length using Nat.strongRecOn generalizing state with
  | ind size ih =>
      have skipped := state.length_skipSpace_le
      have items := readItem_cuts fewer
      have cuts := items.cuts state.skipSpace
      have stops := items.stops state.skipSpace
      rw [arguments_eq, arguments_eq]
      generalize readItem nesting' state.skipSpace = short at cuts
      cases result : readItem nesting state.skipSpace with
      | found node next =>
          have less := consumes_readItem nesting result
          rw [result] at cuts
          cases cuts with
          | same => exact (ih _ (by omega) next rfl).map
          | tooDeep before =>
              exact .tooDeep (Int.le_trans before (arguments_reaches nesting next).map.line_le)
      | failed failure stop =>
          rw [result] at cuts
          cases cuts with
          | same => exact .same
          | tooDeep before => exact .tooDeep before
      | absent stop =>
          rw [result] at stops cuts
          cases stops with
          | reaches reaches => cases reaches
          | absent =>
              cases cuts with
              | same => exact .same
              | tooDeep before => exact .tooDeep before

/-- With less nesting left, a phrase is read as with more, or it is refused as nested too deep. -/
theorem phrase_cutsTo {nesting nesting' : Nat} (fewer : nesting' ≤ nesting) (state : State) :
    (phrase nesting state).CutsTo (phrase nesting' state) := by
  rw [phrase_eq, phrase_eq]
  refine (readHead_cutsTo (readItem_cuts fewer) state).bind fun head next _ => ⟨?_, ?_⟩
  · exact (arguments_cutsTo fewer next).map
  · exact (arguments_reaches nesting next).map.line_le

end IndentLisp.Reader
