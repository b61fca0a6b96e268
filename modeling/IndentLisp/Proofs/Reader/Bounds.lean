import IndentLisp.Parse
import IndentLisp.Proofs.Reader.Indent
import IndentLisp.Proofs.Reader.Item.Soundness

/-!
# Bounds that do not show

Whatever a reader finds takes up some text. So the bounds on the number of items and lines are never
reached, and the readers obey equations in which no bound stands.
-/

set_option autoImplicit false

namespace IndentLisp.Reader

open Grammar

/-- Whatever the reader finds takes up some text. -/
def Consumes {α : Type} (reader : State → Reply α) : Prop :=
  ∀ {state next : State} {value : α}, reader state = .found value next →
    next.rest.length < state.rest.length

private theorem Advances.length_le {state next : State} {text : List Char}
    (advances : Advances state text next) : next.rest.length ≤ state.rest.length := by
  rw [advances.rest, List.length_append]
  omega

theorem length_skipBlankLines_le (state : State) :
    state.skipBlankLines.rest.length ≤ state.rest.length := by
  obtain ⟨_, _, advances⟩ := skipBlankLines_advances state
  exact advances.length_le

theorem length_skipGap_le (state : State) : state.skipGap.rest.length ≤ state.rest.length := by
  obtain ⟨_, _, advances⟩ := skipGap_advances state
  exact advances.length_le

theorem length_lt_of_take? {state next : State} {c : Char} (taken : state.take? c = some next) :
    next.rest.length < state.rest.length := by
  rw [(take?_eq_some_iff.mp taken).1]
  exact Nat.lt_succ_self _

/-! ## Items take up text -/

theorem consumes_readNumber : Consumes readNumber := by
  intro state next node found
  obtain ⟨text, line, level⟩ := state
  obtain ⟨digits, after, rfl, decimal, outside⟩ := exists_run Char.isDigit text
  rw [readNumber_append decimal outside] at found
  by_cases empty : digits = []
  · simp [empty] at found
  · rw [if_neg empty] at found
    have positive := List.length_pos_iff.mpr empty
    split at found
    · cases found
    · split at found
      · cases found
        simpa using positive
      · cases found

theorem consumes_readString : Consumes readString := by
  intro state next node found
  cases opened : state.take? '\'' with
  | none => simp [readString, opened] at found
  | some inside =>
      simp only [readString, opened] at found
      obtain ⟨_, read, -⟩ := Reply.map_eq_found_iff.mp found
      obtain ⟨written, -, behind⟩ := literal_of_readLiteral read
      have less := length_lt_of_take? opened
      rw [behind] at less
      simp at less
      omega

theorem consumes_readSymbol : Consumes readSymbol := by
  intro state next node found
  obtain ⟨text, line, level⟩ := state
  obtain ⟨name, after, rfl, letters, outside⟩ := exists_run (fun c => !endsSymbol c) text
  rw [readSymbol_append letters outside] at found
  split at found
  · cases found
  · next some =>
    cases found
    simpa using List.length_pos_iff.mpr some

section

variable {item : State → Reply Node} (consumes : Consumes item) (keeps : KeepsPlace item)

include consumes keeps

private theorem length_lt_of_readItems {closer : Char} {problem : Nat → Problem} {bound count : Nat}
    {state next : State} {nodes : List Node}
    (found : readItems item closer problem bound count state = .found nodes next) :
    next.rest.length < state.rest.length := by
  induction bound generalizing count state nodes with
  | zero => cases found
  | succ bound ih =>
      have skipped := length_skipGap_le state
      cases result : item state.skipGap with
      | failed => simp [readItems, result] at found
      | found node middle =>
          simp only [readItems, result] at found
          obtain ⟨others, read, -⟩ := Reply.map_eq_found_iff.mp found
          have first := consumes result
          have rest := ih read
          omega
      | absent =>
          obtain rfl := keeps result
          cases closed : state.skipGap.take? closer with
          | none => simp [readItems, result, closed, State.refuse] at found
          | some stop =>
              simp only [readItems, result, closed] at found
              cases found
              have last := length_lt_of_take? closed
              omega

theorem consumes_readArray : Consumes (readArray item) := by
  intro state next node found
  cases opened : state.take? '[' with
  | none => simp [readArray, opened] at found
  | some inside =>
      simp only [readArray, opened] at found
      obtain ⟨_, read, -⟩ := Reply.map_eq_found_iff.mp found
      have first := length_lt_of_take? opened
      have rest := length_lt_of_readItems consumes keeps read
      omega

omit keeps in
theorem consumes_readHead : Consumes (readHead item) := by
  intro state next head found
  exact consumes (readHead_eq_found_iff.mp found).1

theorem consumes_readParenthesised : Consumes (readParenthesised item) := by
  intro state next node found
  cases opened : state.take? '(' with
  | none => simp [readParenthesised, opened] at found
  | some inside =>
      cases result : readHead item inside.skipGap with
      | absent => simp [readParenthesised, opened, result, State.refuse] at found
      | failed => simp [readParenthesised, opened, result] at found
      | found head middle =>
          simp only [readParenthesised, opened, result] at found
          obtain ⟨_, read, -⟩ := Reply.map_eq_found_iff.mp found
          have first := length_lt_of_take? opened
          have skipped := length_skipGap_le inside
          have second := consumes_readHead consumes result
          have rest := length_lt_of_readItems consumes keeps read
          omega

end

theorem consumes_readItem (nesting : Nat) : Consumes (readItem nesting) := by
  refine readItem_induction (motive := Consumes) ?_ consumes_readNumber consumes_readString ?_
    consumes_readSymbol
    (fun nesting consumes => consumes_readArray consumes (keepsPlace_readItem nesting))
    (fun nesting consumes => consumes_readParenthesised consumes (keepsPlace_readItem nesting))
    nesting
  · intro readers keep each state next node found
    obtain ⟨reader, member, read⟩ := exists_mem_of_firstOf_eq_found keep found
    exact each reader member read
  · intro state next node found
    exact absurd found (refuseBracket_ne_found state next node)

/-! ## Items without bounds -/

private theorem rest_skipGap_of_nil {state : State} (done : state.rest = []) :
    state.skipGap.rest = [] := by
  have less := length_skipGap_le state
  rw [done, List.length_nil] at less
  exact List.length_eq_zero_iff.mp (Nat.le_zero.mp less)

private theorem readItem_of_nil (nesting : Nat) {state : State} (done : state.rest = []) :
    readItem nesting state = .absent state :=
  readItem_eq_absent_iff.mpr ⟨rfl, by rw [done]; nofun⟩

private theorem take?_of_nil {state : State} (done : state.rest = []) (c : Char) :
    state.take? c = none :=
  take?_eq_none_iff.mpr (by rw [done]; nofun)

section

variable {nesting : Nat}

private theorem readItems_of_nil (closer : Char) (problem : Nat → Problem) (bound count : Nat)
    {state : State} (done : state.rest = []) :
    readItems (readItem nesting) closer problem bound count state =
      state.skipGap.refuse (problem count) := by
  cases bound with
  | zero => rfl
  | succ bound =>
      have skipped := rest_skipGap_of_nil done
      simp only [readItems, readItem_of_nil nesting skipped, take?_of_nil skipped]

theorem readItems_bound {closer : Char} {problem : Nat → Problem} {bound bound' count : Nat}
    {state : State} (enough : state.rest.length ≤ bound) (enough' : state.rest.length ≤ bound') :
    readItems (readItem nesting) closer problem bound count state =
      readItems (readItem nesting) closer problem bound' count state := by
  induction bound generalizing bound' count state with
  | zero =>
      have done := List.length_eq_zero_iff.mp (Nat.le_zero.mp enough)
      rw [readItems_of_nil _ _ _ _ done, readItems_of_nil _ _ _ _ done]
  | succ bound ih =>
      obtain _ | bound' := bound'
      · have done := List.length_eq_zero_iff.mp (Nat.le_zero.mp enough')
        rw [readItems_of_nil _ _ _ _ done, readItems_of_nil _ _ _ _ done]
      · cases result : readItem nesting state.skipGap with
        | absent | failed => simp only [readItems, result]
        | found node next =>
            have skipped := length_skipGap_le state
            have less := consumes_readItem nesting result
            simp only [readItems, result]
            rw [@ih bound' (count + 1) next (by omega) (by omega)]

end

/-- Items up to and with the closing bracket, after so many others. -/
def itemsUntil (nesting : Nat) (closer : Char) (problem : Nat → Problem) (count : Nat)
    (state : State) : Reply (List Node) :=
  readItems (readItem nesting) closer problem state.rest.length count state

theorem itemsUntil_eq (nesting : Nat) (closer : Char) (problem : Nat → Problem) (count : Nat)
    (state : State) :
    itemsUntil nesting closer problem count state =
      match readItem nesting state.skipGap with
      | .found node next => (itemsUntil nesting closer problem (count + 1) next).map (node :: ·)
      | .failed failure stop => .failed failure stop
      | .absent _ =>
        match state.skipGap.take? closer with
        | some next => .found [] next
        | none => state.skipGap.refuse (problem count) := by
  rw [itemsUntil, @readItems_bound _ _ _ _ (state.rest.length + 1) _ _ (Nat.le_refl _)
    (Nat.le_succ _)]
  cases result : readItem nesting state.skipGap with
  | failed => simp only [readItems, result]
  | absent =>
      obtain rfl := keepsPlace_readItem nesting result
      cases taken : state.skipGap.take? closer <;> simp only [readItems, result, taken]
  | found node next =>
      have skipped := length_skipGap_le state
      have less := consumes_readItem nesting result
      simp only [readItems, result, itemsUntil]
      rw [readItems_bound (by omega) (Nat.le_refl _)]

theorem readArray_eq (nesting : Nat) (state : State) :
    readArray (readItem nesting) state =
      match state.take? '[' with
      | none => .absent state
      | some inside =>
        (itemsUntil nesting ']' .arrayItems 0 inside).map fun items => .array items state.line :=
  rfl

theorem readHead_eq_absent_iff {item : State → Reply Node} {state next : State} :
    readHead item state = .absent next ↔ item state = .absent next := by
  cases result : item state with
  | absent | failed => simp [readHead, result, Reply.bind]
  | found node stop => cases problem : headProblem? node <;>
      simp [readHead, result, Reply.bind, problem, State.refuse]

theorem keepsPlace_readHead (nesting : Nat) : KeepsPlace (readHead (readItem nesting)) :=
  fun absent => keepsPlace_readItem nesting (readHead_eq_absent_iff.mp absent)

theorem readParenthesised_eq (nesting : Nat) (state : State) :
    readParenthesised (readItem nesting) state =
      match state.take? '(' with
      | none => .absent state
      | some inside =>
        match readHead (readItem nesting) inside.skipGap with
        | .found head next =>
          (itemsUntil nesting ')' .arguments 0 next).map fun tail =>
            .expression head tail false state.line
        | .absent _ => inside.skipGap.refuse .noHead
        | .failed failure stop => .failed failure stop := by
  rw [readParenthesised]
  cases state.take? '(' with
  | none => rfl
  | some inside =>
      dsimp only
      cases result : readHead (readItem nesting) inside.skipGap with
      | found | failed => rfl
      | absent => rw [keepsPlace_readHead nesting result]

/-! ## Phrases without bounds -/

theorem skipSpace_of_nil {state : State} (done : state.rest = []) : state.skipSpace = state := by
  rw [State.skipSpace, done, List.dropWhile_nil, ← done]

section

variable {nesting : Nat}

private theorem readArguments_of_nil (bound : Nat) {state : State} (done : state.rest = []) :
    readArguments (readItem nesting) bound state = .found [] state := by
  have skipped := skipSpace_of_nil done
  cases bound with
  | zero => rw [readArguments, skipped]
  | succ bound => simp only [readArguments, skipped, readItem_of_nil nesting done]

theorem readArguments_bound {bound bound' : Nat} {state : State}
    (enough : state.rest.length ≤ bound) (enough' : state.rest.length ≤ bound') :
    readArguments (readItem nesting) bound state =
      readArguments (readItem nesting) bound' state := by
  induction bound generalizing bound' state with
  | zero =>
      have done := List.length_eq_zero_iff.mp (Nat.le_zero.mp enough)
      rw [readArguments_of_nil _ done, readArguments_of_nil _ done]
  | succ bound ih =>
      obtain _ | bound' := bound'
      · have done := List.length_eq_zero_iff.mp (Nat.le_zero.mp enough')
        rw [readArguments_of_nil _ done, readArguments_of_nil _ done]
      · cases result : readItem nesting state.skipSpace with
        | absent | failed => simp only [readArguments, result]
        | found node next =>
            have skipped := state.length_skipSpace_le
            have less := consumes_readItem nesting result
            simp only [readArguments, result]
            rw [@ih bound' next (by omega) (by omega)]

end

/-- Items up to where no further item starts on the line. -/
def arguments (nesting : Nat) (state : State) : Reply (List Node) :=
  readArguments (readItem nesting) state.rest.length state

theorem arguments_eq (nesting : Nat) (state : State) :
    arguments nesting state =
      match readItem nesting state.skipSpace with
      | .found node next => (arguments nesting next).map (node :: ·)
      | .failed failure stop => .failed failure stop
      | .absent _ => .found [] state.skipSpace := by
  rw [arguments, @readArguments_bound _ _ (state.rest.length + 1) _ (Nat.le_refl _) (Nat.le_succ _)]
  cases result : readItem nesting state.skipSpace with
  | failed => simp only [readArguments, result]
  | absent =>
      obtain rfl := keepsPlace_readItem nesting result
      simp only [readArguments, result]
  | found node next =>
      have skipped := state.length_skipSpace_le
      have less := consumes_readItem nesting result
      simp only [readArguments, result, arguments]
      rw [readArguments_bound (by omega) (Nat.le_refl _)]

theorem phrase_eq (nesting : Nat) (state : State) :
    phrase nesting state =
      (readHead (readItem nesting) state).bind fun head next =>
        (arguments nesting next).map fun arguments => ⟨head, arguments, state.line⟩ :=
  rfl

section

variable {nesting : Nat} {state next : State}

private theorem length_le_of_arguments_found {nodes : List Node}
    (found : arguments nesting state = .found nodes next) :
    next.rest.length ≤ state.rest.length := by
  induction long : state.rest.length using Nat.strongRecOn generalizing state nodes with
  | ind size ih =>
      have skipped := state.length_skipSpace_le
      rw [arguments_eq] at found
      cases result : readItem nesting state.skipSpace with
      | failed => simp [result] at found
      | absent =>
          simp only [result] at found
          cases found
          omega
      | found node middle =>
          simp only [result] at found
          obtain ⟨_, read, -⟩ := Reply.map_eq_found_iff.mp found
          have less := consumes_readItem nesting result
          have rest := ih _ (by omega) read rfl
          omega

/-- Arguments end behind white space, where no item starts. -/
private theorem exists_end_of_arguments {nodes : List Node}
    (found : arguments nesting state = .found nodes next) :
    ∃ last : State, next = last.skipSpace ∧ readItem nesting next = .absent next := by
  induction long : state.rest.length using Nat.strongRecOn generalizing state nodes with
  | ind size ih =>
      have skipped := state.length_skipSpace_le
      rw [arguments_eq] at found
      cases result : readItem nesting state.skipSpace with
      | failed => simp [result] at found
      | absent =>
          obtain rfl := keepsPlace_readItem nesting result
          simp only [result] at found
          cases found
          exact ⟨state, rfl, result⟩
      | found node middle =>
          simp only [result] at found
          obtain ⟨_, read, -⟩ := Reply.map_eq_found_iff.mp found
          have less := consumes_readItem nesting result
          exact ih _ (by omega) read rfl

theorem exists_end_of_phrase {value : Phrase}
    (found : phrase nesting state = .found value next) :
    ∃ last : State, next = last.skipSpace ∧ readItem nesting next = .absent next := by
  rw [phrase_eq] at found
  obtain ⟨_, _, -, found⟩ := Reply.bind_eq_found_iff.mp found
  obtain ⟨_, read, -⟩ := Reply.map_eq_found_iff.mp found
  exact exists_end_of_arguments read

private theorem readArguments_ne_absent (bound : Nat) (state next : State) :
    readArguments (readItem nesting) bound state ≠ .absent next := by
  induction bound generalizing state with
  | zero => nofun
  | succ bound ih =>
      cases result : readItem nesting state.skipSpace with
      | absent | failed => simp [readArguments, result]
      | found node middle =>
          simp only [readArguments, result, ne_eq, Reply.map_eq_absent_iff]
          exact ih middle

/-- No phrase starts where no item starts. -/
private theorem phrase_eq_absent_iff :
    phrase nesting state = .absent next ↔ readItem nesting state = .absent next := by
  rw [phrase_eq, ← readHead_eq_absent_iff]
  cases head : readHead (readItem nesting) state with
  | absent | failed => simp [Reply.bind]
  | found node middle =>
      simpa [arguments, Reply.bind, Reply.map_eq_absent_iff] using
        readArguments_ne_absent middle.rest.length middle next

private theorem keepsPlace_phrase (nesting : Nat) : KeepsPlace (phrase nesting) :=
  fun absent => keepsPlace_readItem nesting (phrase_eq_absent_iff.mp absent)

theorem consumes_phrase : Consumes (phrase nesting) := by
  intro state next value found
  rw [phrase_eq] at found
  obtain ⟨head, middle, first, found⟩ := Reply.bind_eq_found_iff.mp found
  obtain ⟨_, read, -⟩ := Reply.map_eq_found_iff.mp found
  have less := consumes_readHead (consumes_readItem nesting) first
  have rest := length_le_of_arguments_found read
  omega

private theorem phrase_of_nil (nesting : Nat) (done : state.rest = []) :
    phrase nesting state = .absent state :=
  phrase_eq_absent_iff.mpr (readItem_of_nil nesting done)

end

/-! ## Lines and blocks take up text -/

theorem line_eq (nesting : Nat) (state : State) :
    line nesting state =
      match phrase nesting state.skipSpace with
      | .failed failure stop => .failed failure stop
      | .absent _ => state.skipSpace.refuse .malformedLine
      | .found phrase stop =>
        match stop.endLine? with
        | none => stop.refuse .malformedLine
        | some next => (block nesting next).map phrase.withBody := by
  cases read : phrase nesting state.skipSpace with
  | found phrase stop =>
      rw [Reader.phrase] at read
      cases ended : stop.endLine? <;> simp only [line, readLine, read, ended]
  | failed =>
      rw [phrase] at read
      simp only [line, readLine, read]
  | absent =>
      have kept := keepsPlace_phrase nesting read
      rw [phrase] at read
      simp only [line, readLine, read, kept]

/-- The lines of a block, from the one that starts here. -/
def lines (nesting : Nat) (state : State) : Reply (List Node) :=
  readLines (line nesting) state.rest.length state

/-- The lines of a block that has been opened here, if there is nesting left for it. -/
def linesWithin : Nat → State → Reply (List Node)
  | 0, state => state.refuse .tooDeep
  | nesting + 1, state => lines nesting state

theorem block_eq (nesting : Nat) (state : State) :
    block nesting state =
      if state.skipBlankLines.atEnd then
        .found ⟨[], state.skipBlankLines.line⟩ state.skipBlankLines
      else
        match state.skipBlankLines.indent with
        | .failed failure stop => .failed failure stop
        | .absent _ => .found ⟨[], state.skipBlankLines.line⟩ state.skipBlankLines
        | .found _ inside =>
          (linesWithin nesting inside).map fun children =>
            ⟨children, state.skipBlankLines.line⟩ := by
  cases opened : state.skipBlankLines.indent with
  | failed => cases nesting <;> simp only [block, opened]
  | absent =>
      obtain rfl := State.keepsPlace_indent opened
      cases nesting <;> simp only [block, opened]
  | found _ inside => cases nesting <;> simp only [block, opened] <;> rfl

/-- What the reader finds takes up no more than the text. -/
def StaysWithin {α : Type} (reader : State → Reply α) : Prop :=
  ∀ {state next : State} {value : α}, reader state = .found value next →
    next.rest.length ≤ state.rest.length

private theorem consumes_line_of_block {nesting : Nat} (stays : StaysWithin (block nesting)) :
    Consumes (line nesting) := by
  intro state next node found
  have skipped := state.length_skipSpace_le
  rw [line_eq] at found
  cases read : phrase nesting state.skipSpace with
  | absent | failed => simp [read, State.refuse] at found
  | found value stop =>
      have less := consumes_phrase read
      simp only [read] at found
      cases last : stop.endLine? with
      | none => simp [last, State.refuse] at found
      | some below =>
          simp only [last] at found
          obtain ⟨_, readBody, -⟩ := Reply.map_eq_found_iff.mp found
          have ended := State.length_lt_of_endLine? last
          have rest := stays readBody
          omega

private theorem consumes_readLines {line : State → Reply Node} (consumes : Consumes line)
    (bound : Nat) :
    Consumes (readLines line bound) := by
  induction bound with
  | zero => intro _ _ _ found; cases found
  | succ bound ih =>
      intro state next nodes found
      obtain ⟨node, stop, read, found⟩ := Reply.bind_eq_found_iff.mp found
      have less := consumes read
      have skipped := length_skipBlankLines_le stop
      dsimp only at found
      split at found
      · cases found
        omega
      · cases closed : stop.skipBlankLines.dedent with
        | failed => simp [closed] at found
        | found _ outside =>
            simp only [closed] at found
            cases found
            rw [State.rest_of_dedent closed]
            omega
        | absent =>
            obtain rfl := State.keepsPlace_dedent closed
            cases stays : stop.skipBlankLines.nodent with
            | absent | failed => simp [closed, stays, State.refuse] at found
            | found _ same =>
                simp only [closed, stays] at found
                obtain ⟨_, readRest, -⟩ := Reply.map_eq_found_iff.mp found
                have rest := ih readRest
                rw [State.rest_of_nodent stays] at rest
                omega

private theorem staysWithin_block_of_linesWithin {nesting : Nat}
    (consumes : Consumes (linesWithin nesting)) :
    StaysWithin (block nesting) := by
  intro state next body found
  have skipped := length_skipBlankLines_le state
  rw [block_eq] at found
  split at found
  · cases found
    exact skipped
  · cases opened : state.skipBlankLines.indent with
    | failed => simp [opened] at found
    | absent =>
        simp only [opened] at found
        cases found
        exact skipped
    | found _ inside =>
        simp only [opened] at found
        obtain ⟨_, read, -⟩ := Reply.map_eq_found_iff.mp found
        have less := consumes read
        rw [State.rest_of_indent opened] at less
        omega

private theorem consumes_linesWithin (nesting : Nat) : Consumes (linesWithin nesting) := by
  induction nesting with
  | zero => intro _ _ _ found; cases found
  | succ nesting ih =>
      exact consumes_readLines
        (consumes_line_of_block (staysWithin_block_of_linesWithin ih)) _

theorem consumes_line (nesting : Nat) : Consumes (line nesting) :=
  consumes_line_of_block (staysWithin_block_of_linesWithin (consumes_linesWithin nesting))

/-! ## Lines without bounds -/

section

variable {nesting : Nat}

private theorem line_of_nil {state : State} (done : state.rest = []) :
    line nesting state = state.refuse .malformedLine := by
  rw [line_eq, skipSpace_of_nil done, phrase_of_nil nesting done]

private theorem readLines_of_nil (bound : Nat) {state : State} (done : state.rest = []) :
    readLines (line nesting) bound state = state.refuse .malformedLine := by
  cases bound with
  | zero => rfl
  | succ bound =>
      rw [readLines, line_of_nil done]
      rfl

theorem readLines_bound {bound bound' : Nat} {state : State} (enough : state.rest.length ≤ bound)
    (enough' : state.rest.length ≤ bound') :
    readLines (line nesting) bound state = readLines (line nesting) bound' state := by
  induction bound generalizing bound' state with
  | zero =>
      have done := List.length_eq_zero_iff.mp (Nat.le_zero.mp enough)
      rw [readLines_of_nil _ done, readLines_of_nil _ done]
  | succ bound ih =>
      obtain _ | bound' := bound'
      · have done := List.length_eq_zero_iff.mp (Nat.le_zero.mp enough')
        rw [readLines_of_nil _ done, readLines_of_nil _ done]
      · cases result : line nesting state with
        | absent | failed => simp only [readLines, result, Reply.bind]
        | found node next =>
            have less := consumes_line nesting result
            have skipped := length_skipBlankLines_le next
            cases closed : next.skipBlankLines.dedent with
            | found | failed => simp only [readLines, result, Reply.bind, closed]
            | absent =>
                obtain rfl := State.keepsPlace_dedent closed
                cases stays : next.skipBlankLines.nodent with
                | absent | failed => simp only [readLines, result, Reply.bind, closed, stays]
                | found _ same =>
                    have kept := State.rest_of_nodent stays
                    simp only [readLines, result, Reply.bind, closed, stays]
                    rw [@ih bound' same (by rw [kept]; omega) (by rw [kept]; omega)]

end

theorem lines_eq (nesting : Nat) (state : State) :
    lines nesting state =
      (line nesting state).bind fun node stop =>
        if stop.skipBlankLines.atEnd then .found [node] stop.skipBlankLines
        else
          match stop.skipBlankLines.dedent with
          | .found _ outside => .found [node] outside
          | .failed failure stop => .failed failure stop
          | .absent _ =>
            match stop.skipBlankLines.nodent with
            | .found _ same => (lines nesting same).map (node :: ·)
            | .failed failure stop => .failed failure stop
            | .absent _ => stop.skipBlankLines.refuse .excessiveIndent := by
  rw [lines, readLines_bound (Nat.le_refl _) (Nat.le_succ _)]
  cases result : line nesting state with
  | absent | failed => simp only [readLines, result, Reply.bind]
  | found node next =>
      have less := consumes_line nesting result
      have skipped := length_skipBlankLines_le next
      cases closed : next.skipBlankLines.dedent with
      | found | failed => simp only [readLines, result, Reply.bind, closed]
      | absent =>
          obtain rfl := State.keepsPlace_dedent closed
          cases stays : next.skipBlankLines.nodent with
          | failed => simp only [readLines, result, Reply.bind, closed, stays]
          | absent =>
              obtain rfl := State.keepsPlace_nodent stays
              simp only [readLines, result, Reply.bind, closed, stays]
          | found _ same =>
              have kept := State.rest_of_nodent stays
              simp only [readLines, result, Reply.bind, closed, stays, lines]
              rw [readLines_bound (by rw [kept]; omega) (Nat.le_refl _)]

end IndentLisp.Reader
