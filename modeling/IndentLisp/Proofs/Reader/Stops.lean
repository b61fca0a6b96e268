import IndentLisp.Proofs.Reader.Bounds

/-!
# Where readers stop

Whatever a reader of items or phrases finds or fails at, it has read some part of the text, counted
the line ends in it and kept the level, and it has not stopped between a carriage return and its
line feed. Where there is nothing for it, it has read nothing.
-/

set_option autoImplicit false

namespace IndentLisp.Reader

open Grammar

/-- Reading past the text leads from the first state to the second one, whatever their levels. -/
structure Passes (state : State) (text : List Char) (next : State) : Prop where
  rest : state.rest = text ++ next.rest
  line : next.line = state.line + lineEnds text
  joins : Joins text next.rest

private theorem Advances.passes {state next : State} {text : List Char}
    (advances : Advances state text next) (joins : Joins text next.rest) :
    Passes state text next :=
  ⟨advances.rest, advances.line, joins⟩

namespace Passes

variable {state middle next : State} {left right text : List Char}

theorem refl (state : State) : Passes state [] state :=
  (Advances.refl state).passes (.of_inside (List.forall_mem_nil _))

theorem trans (before : Passes state left middle) (after : Passes middle right next) :
    Passes state (left ++ right) next := by
  have meets : Joins left (right ++ next.rest) := after.rest ▸ before.joins
  refine ⟨?_, ?_, ?_⟩
  · rw [before.rest, after.rest, List.append_assoc]
  · rw [after.line, before.line, lineEnds_append meets.of_append_right, Int.natCast_add,
      Int.add_assoc]
  · by_cases empty : right = []
    · subst empty
      rwa [List.append_nil]
    · exact after.joins.append_left empty left

theorem line_le (passes : Passes state text next) : state.line ≤ next.line := by
  rw [passes.line]
  omega

theorem of_inside (inside : ∀ c ∈ text, isLineBreak c = false) (rest : List Char)
    (line level level' : Int) : Passes ⟨text ++ rest, line, level⟩ text ⟨rest, line, level'⟩ where
  rest := rfl
  line := by simp [lineEnds_eq_zero_of_inside inside]
  joins := .of_inside inside

theorem of_take? {c : Char} (taken : state.take? c = some next) (inside : isLineBreak c = false) :
    Passes state [c] next :=
  (Advances.of_take? taken inside).passes (.of_singleton inside _)

theorem skipSpace (state : State) : ∃ spaces, Passes state spaces state.skipSpace := by
  obtain ⟨spaces, blank, advances⟩ := skipSpace_advances state
  exact ⟨spaces, advances.passes (.of_inside fun c member =>
    not_isLineBreak_of_isSpace (blank c member))⟩

theorem endLine? (ended : state.endLine? = some next) : ∃ text, Passes state text next := by
  obtain ⟨comment, ending, _, isEnding, joins, advances⟩ := endLine?_eq_some_iff.mp ended
  exact ⟨comment ++ ending, advances.passes (joins.append_left isEnding.ne_nil comment)⟩

theorem skipBlankLines (state : State) : ∃ gap, Passes state gap state.skipBlankLines := by
  induction state using State.skipBlankLines.induct with
  | case1 state next ended ih =>
      obtain ⟨spaces, first⟩ := skipSpace state
      obtain ⟨text, second⟩ := endLine? ended
      obtain ⟨gap, rest⟩ := ih
      rw [skipBlankLines_of_endLine? ended]
      exact ⟨_, (first.trans second).trans rest⟩
  | case2 state content =>
      rw [skipBlankLines_eq_self content]
      exact ⟨[], refl state⟩

theorem skipGap (state : State) : ∃ gap, Passes state gap state.skipGap := by
  obtain ⟨gap, first⟩ := skipBlankLines state
  obtain ⟨spaces, second⟩ := skipSpace state.skipBlankLines
  exact ⟨gap ++ spaces, first.trans second⟩

end Passes

private theorem level_skipGap (state : State) : state.skipGap.level = state.level := by
  obtain ⟨_, _, advances⟩ := skipGap_advances state
  exact advances.level

/-- A text that ends in a run of so many digits, more than the limit admits. -/
def EndsInLongNumeral (digits : Nat) (text : List Char) : Prop :=
  ∃ numeral, numeral <:+ text ∧ (∀ c ∈ numeral, c.isDigit = true) ∧ numeral.length = digits ∧
    Numeral.digitLimit < digits

theorem EndsInLongNumeral.append {digits : Nat} {text : List Char}
    (ends : EndsInLongNumeral digits text) (before : List Char) :
    EndsInLongNumeral digits (before ++ text) := by
  obtain ⟨numeral, suffix, decimal⟩ := ends
  exact ⟨numeral, suffix.trans (List.suffix_append before text), decimal⟩

/-- Something was found or refused, at or behind the given state. -/
inductive Reply.Reaches {α : Type} (state : State) : Reply α → Prop where
  | found {value : α} {text : List Char} {next : State} :
      Passes state text next → next.level = state.level → Reaches state (.found value next)
  | failed {failure : Failure} {text : List Char} {stop : State} :
      Passes state text stop → stop.level = state.level →
      (∀ digits, failure = .numeralTooLong digits → EndsInLongNumeral digits text) →
      Reaches state (.failed failure stop)

/-- The reply tells where reading stopped: at the given state if nothing was there, and at or behind
it otherwise. -/
inductive Reply.Stops {α : Type} (state : State) : Reply α → Prop where
  | absent : Stops state (.absent state)
  | reaches {reply : Reply α} : reply.Reaches state → Stops state reply

namespace Reply.Reaches

variable {α β : Type} {state middle next : State} {reply : Reply α}

theorem refuse (state : State) (cause : Problem) : (state.refuse cause : Reply α).Reaches state :=
  .failed (.refl state) rfl fun _ same => by cases same

private theorem after {text : List Char} (passes : Passes state text middle)
    (level : middle.level = state.level) (reaches : reply.Reaches middle) :
    reply.Reaches state := by
  cases reaches with
  | found further same => exact .found (passes.trans further) (same.trans level)
  | failed further same long =>
      exact .failed (passes.trans further) (same.trans level)
        fun digits isLong => (long digits isLong).append text

private theorem failure {failure : Failure} {stop : State}
    (reaches : (.failed failure stop : Reply α).Reaches state) :
    (.failed failure stop : Reply β).Reaches state := by
  cases reaches with
  | failed passes level long => exact .failed passes level long

theorem map {f : α → β} (reaches : reply.Reaches state) : (reply.map f).Reaches state := by
  cases reaches with
  | found passes level => exact .found passes level
  | failed passes level long => exact .failed passes level long

theorem ne_absent (reaches : reply.Reaches state) : reply ≠ .absent next := by
  rintro rfl
  cases reaches

end Reply.Reaches

namespace Reply.Stops

variable {α β : Type} {state next : State} {reply : Reply α}

theorem reaches_of_found {value : α} (stops : (.found value next : Reply α).Stops state) :
    (.found value next : Reply α).Reaches state := by
  cases stops with
  | reaches reaches => exact reaches

theorem reaches_of_failed {failure : Failure}
    (stops : (.failed failure next : Reply α).Stops state) :
    (.failed failure next : Reply α).Reaches state := by
  cases stops with
  | reaches reaches => exact reaches

theorem map {f : α → β} (stops : reply.Stops state) : (reply.map f).Stops state := by
  cases stops with
  | absent => exact .absent
  | reaches reaches => exact .reaches reaches.map

private theorem bind {goOn : α → State → Reply β} (stops : reply.Stops state)
    (further : ∀ value next, reply = .found value next → (goOn value next).Reaches next) :
    (reply.bind goOn).Stops state := by
  cases stops with
  | absent => exact .absent
  | reaches reaches =>
      cases reaches with
      | found passes level => exact .reaches (.after passes level (further _ _ rfl))
      | failed passes level long => exact .reaches (.failed passes level long)

private theorem firstOf {readers : List (State → Reply α)}
    (keep : ∀ reader ∈ readers, KeepsPlace reader)
    (each : ∀ reader ∈ readers, (reader state).Stops state) :
    (firstOf readers state).Stops state :=
  firstOf_of_forall keep .absent each

end Reply.Stops

/-! ## Tokens -/

theorem readNumber_stops (state : State) : (readNumber state).Stops state := by
  obtain ⟨text, line, level⟩ := state
  obtain ⟨digits, after, rfl, decimal, outside⟩ := exists_run Char.isDigit text
  have passes := Passes.of_inside (fun c member => not_isLineBreak_of_isDigit (decimal c member))
    after line level level
  rw [readNumber_append decimal outside]
  split
  · next none =>
    subst none
    exact .absent
  · refine .reaches ?_
    split
    · exact .after passes rfl (.refuse _ _)
    · split
      · exact .found passes rfl
      · next long =>
        refine .failed passes rfl fun count same => ?_
        cases same
        exact ⟨digits, List.suffix_rfl, decimal, rfl, Nat.not_le.mp long⟩

theorem readSymbol_stops (state : State) : (readSymbol state).Stops state := by
  obtain ⟨text, line, level⟩ := state
  obtain ⟨name, after, rfl, letters, outside⟩ := exists_run (fun c => !endsSymbol c) text
  rw [readSymbol_append letters outside]
  split
  · next none =>
    subst none
    exact .absent
  · have inside := fun c member => not_isLineBreak_of_not_endsSymbol (letters c member)
    exact .reaches (.found (.of_inside inside after line level level) rfl)

theorem add_lineEnds_singleton (line : Int) (c : Char) :
    line + lineEnds [c] = if isLineBreak c then line + 1 else line := by
  cases isBreak : isLineBreak c with
  | true =>
      obtain rfl | rfl : c = '\n' ∨ c = '\r' := by simpa [isLineBreak] using isBreak
      all_goals rfl
  | false => simp [lineEnds_cons_of_inside isBreak]

theorem readLiteral_reaches (level : Int) (text : List Char) (line : Int) :
    (readLiteral level text line).Reaches ⟨text, line, level⟩ := by
  fun_induction readLiteral level text line with
  | case1 | case3 | case5 => exact .refuse _ _
  | case2 rest line =>
      exact .found (.of_inside (List.forall_mem_singleton.mpr rfl) rest line level level) rfl
  | case4 c rest line meant escape ih =>
      have inside : ∀ d ∈ ['\\', c], isLineBreak d = false :=
        List.forall_mem_cons.mpr
          ⟨rfl, List.forall_mem_singleton.mpr (not_isLineBreak_of_unescape? escape)⟩
      exact (Reply.Reaches.after (.of_inside inside rest line level level) rfl ih).map
  | case6 rest line ih =>
      have passes : Passes ⟨'\r' :: '\n' :: rest, line, level⟩ ['\r', '\n']
          ⟨rest, line + 1, level⟩ := ⟨rfl, rfl, joins_return_feed rest⟩
      exact (Reply.Reaches.after passes rfl ih).map
  | case7 c rest line noQuote lone noEscape noPair ih =>
      have joins : Joins [c] rest := by
        intro last followed
        obtain ⟨tail, rfl⟩ := List.head?_eq_some_iff.mp followed
        exact noPair tail (Option.some.inj last) rfl
      have passes : Passes ⟨c :: rest, line, level⟩ [c]
          ⟨rest, if isLineBreak c then line + 1 else line, level⟩ :=
        ⟨rfl, (add_lineEnds_singleton line c).symm, joins⟩
      exact (Reply.Reaches.after passes rfl ih).map

private theorem level_of_take? {state inside : State} {c : Char}
    (taken : state.take? c = some inside) :
    inside.level = state.level := by
  rw [(take?_eq_some_iff.mp taken).2]

theorem readString_stops (state : State) : (readString state).Stops state := by
  rw [readString]
  cases taken : state.take? '\'' with
  | none => exact .absent
  | some inside =>
      have literal := readLiteral_reaches inside.level inside.rest inside.line
      exact .reaches (.after (.of_take? taken rfl) (level_of_take? taken) literal.map)

/-! ## Items -/

private theorem refuseBracket_stops (state : State) : (refuseBracket state).Stops state := by
  unfold refuseBracket
  split
  · exact .reaches (.refuse state _)
  · exact .reaches (.refuse state _)
  · exact .absent

section

variable {item : State → Reply Node}

theorem readHead_stops (items : ∀ state, (item state).Stops state) (state : State) :
    (readHead item state).Stops state := by
  refine (items state).bind fun node next _ => ?_
  cases headProblem? node with
  | some problem => exact .refuse next problem
  | none => exact .found (.refl next) rfl

/-- Items are looked for behind the gap. -/
theorem readItems_reaches_skipGap (items : ∀ state, (item state).Stops state) {closer : Char}
    (closes : isLineBreak closer = false) (problem : Nat → Problem) (bound count : Nat)
    (state : State) :
    (readItems item closer problem bound count state).Reaches state.skipGap := by
  induction bound generalizing count state with
  | zero => exact .refuse _ _
  | succ bound ih =>
      have first := items state.skipGap
      cases result : item state.skipGap with
      | found node next =>
          rw [result] at first
          simp only [readItems, result]
          cases first.reaches_of_found with
          | found further level =>
              obtain ⟨gap, passes⟩ := Passes.skipGap next
              exact .after further level (.after passes (level_skipGap next) (ih _ next).map)
      | failed failure stop =>
          rw [result] at first
          simp only [readItems, result]
          exact first.reaches_of_failed.failure
      | absent =>
          rw [result] at first
          cases first with
          | reaches reaches => cases reaches
          | absent =>
              simp only [readItems, result]
              cases taken : state.skipGap.take? closer with
              | none => exact .refuse _ _
              | some next => exact .found (.of_take? taken closes) (level_of_take? taken)

theorem readItems_reaches (items : ∀ state, (item state).Stops state) {closer : Char}
    (closes : isLineBreak closer = false) (problem : Nat → Problem) (bound count : Nat)
    (state : State) : (readItems item closer problem bound count state).Reaches state := by
  obtain ⟨gap, passes⟩ := Passes.skipGap state
  exact .after passes (level_skipGap state)
    (readItems_reaches_skipGap items closes problem bound count state)

theorem readArray_stops (items : ∀ state, (item state).Stops state) (state : State) :
    (readArray item state).Stops state := by
  rw [readArray]
  cases taken : state.take? '[' with
  | none => exact .absent
  | some inside =>
      have closes : isLineBreak ']' = false := rfl
      have read := readItems_reaches items closes .arrayItems inside.rest.length 0 inside
      exact .reaches (.after (.of_take? taken rfl) (level_of_take? taken) read.map)

theorem readParenthesised_reaches_skipGap (items : ∀ state, (item state).Stops state)
    {state inside : State} (taken : state.take? '(' = some inside) :
    (readParenthesised item state).Reaches inside.skipGap := by
  have first := readHead_stops items inside.skipGap
  simp only [readParenthesised, taken]
  cases result : readHead item inside.skipGap with
  | absent =>
      rw [result] at first
      cases first with
      | absent => exact .refuse _ _
      | reaches reaches => cases reaches
  | failed failure stop =>
      rw [result] at first
      exact first.reaches_of_failed.failure
  | found head next =>
      rw [result] at first
      cases first.reaches_of_found with
      | found further level =>
          exact .after further level (readItems_reaches items rfl _ _ _ _).map

theorem readParenthesised_stops (items : ∀ state, (item state).Stops state) (state : State) :
    (readParenthesised item state).Stops state := by
  cases taken : state.take? '(' with
  | none =>
      simp only [readParenthesised, taken]
      exact .absent
  | some inside =>
      obtain ⟨gap, passes⟩ := Passes.skipGap inside
      have read := Reply.Reaches.after passes (level_skipGap inside)
        (readParenthesised_reaches_skipGap items taken)
      exact .reaches (.after (.of_take? taken rfl) (level_of_take? taken) read)

end

theorem readItem_stops (nesting : Nat) (state : State) :
    (readItem nesting state).Stops state :=
  readItem_induction (motive := fun reader => ∀ state, (reader state).Stops state)
    (fun _ keep each state => .firstOf keep fun reader member => each reader member state)
    readNumber_stops readString_stops refuseBracket_stops readSymbol_stops
    (fun _ => readArray_stops) (fun _ => readParenthesised_stops) nesting state

/-! ## Phrases -/

theorem arguments_reaches (nesting : Nat) (state : State) :
    (arguments nesting state).Reaches state := by
  induction long : state.rest.length using Nat.strongRecOn generalizing state with
  | ind size ih =>
      have skipped := state.length_skipSpace_le
      obtain ⟨spaces, passes⟩ := Passes.skipSpace state
      refine .after passes rfl ?_
      have first := readItem_stops nesting state.skipSpace
      rw [arguments_eq]
      cases result : readItem nesting state.skipSpace with
      | absent => exact .found (.refl _) rfl
      | failed failure stop =>
          rw [result] at first
          exact first.reaches_of_failed.failure
      | found node next =>
          have less := consumes_readItem nesting result
          rw [result] at first
          cases first.reaches_of_found with
          | found further level => exact .after further level (ih _ (by omega) next rfl).map

theorem phrase_stops (nesting : Nat) (state : State) : (phrase nesting state).Stops state := by
  rw [phrase_eq]
  refine (readHead_stops (readItem_stops nesting) state).bind fun head next _ => ?_
  exact (arguments_reaches nesting next).map

end IndentLisp.Reader
