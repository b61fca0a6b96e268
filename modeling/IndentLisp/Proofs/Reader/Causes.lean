import IndentLisp.Proofs.Program.Listing
import IndentLisp.Proofs.Reader.FollowingText

/-!
# Causes of refusals

Where an item or a phrase is refused, the unread text shows why: it goes on with the character that
is out of place there, or it is used up. So the problems of lines and of their indentation are not
found inside a phrase.
-/

set_option autoImplicit false

namespace IndentLisp

open Grammar Reader

/-- The closing brackets. -/
def isCloser (c : Char) : Bool := c == ')' || c == ']'

/-- What the unread text shows where an item or a phrase is refused for a problem. There is no such
place for the problems that lines alone can have. -/
def Problem.shows : Problem → List Char → Prop
  | tooDeep, rest => StartsWith (fun c => c == '[' || c == '(') rest
  | numberRunsInto next, rest => endsNumber next = false ∧ ∃ after, rest = next :: after
  | openString, rest => rest = []
  | badEscape next, rest =>
    (∀ c ∈ next, Quoted.unescape? c = none) ∧ ∃ after, rest = '\\' :: next.toList ++ after
  | arrayItems _, rest => rest = [] ∨ StartsWith (· == ')') rest
  | noHead, rest => rest = [] ∨ StartsWith isCloser rest
  | arguments _, rest => rest = [] ∨ StartsWith (· == ']') rest
  | numberHead, _ | stringHead, _ | arrayHead, _ => True
  | spacesInIndent, _ | excessiveIndent, _ | indentedStart, _ | malformedLine, _ => False

namespace Reader

/-! ## The content behind a gap -/

private theorem isSome_dropLineEnd? {c : Char} (isBreak : isLineBreak c = true) (rest : List Char) :
    (dropLineEnd? (c :: rest)).isSome = true := by
  obtain rfl | rfl : c = '\n' ∨ c = '\r' := by simpa [isLineBreak] using isBreak
  · rfl
  · cases rest with
    | nil => rfl
    | cons d rest =>
        unfold dropLineEnd?
        split <;> simp_all

/-- In a text that ends in a line feed, a comment or a line break ends the line. -/
private theorem isSome_endLine? {state : State} (ended : Ended state.rest)
    (opens : StartsWith (fun c => isLineBreak c || c == ';') state.rest) :
    state.endLine?.isSome = true := by
  obtain ⟨c, rest, split, first⟩ := opens
  rw [State.endLine?, Option.isSome_map, split]
  by_cases isComment : c = ';'
  · subst isComment
    rw [split] at ended
    obtain ⟨some, endedRest⟩ := ended_of_cons ended (by decide)
    have left := dropWhile_ne_nil (p := fun c => !isLineBreak c) rfl some endedRest
    obtain ⟨d, after, behind⟩ := List.exists_cons_of_ne_nil left
    have isBreak := List.head?_dropWhile_not (fun c => !isLineBreak c) rest
    rw [dropComment, behind]
    rw [behind] at isBreak
    exact isSome_dropLineEnd? (by simpa using isBreak) after
  · have isBreak : isLineBreak c = true := by simpa [isComment] using first
    rw [dropComment]
    · exact isSome_dropLineEnd? isBreak rest
    · intro other isOther
      exact isComment (List.cons.inj isOther).1

/-- Behind blank lines there is the end of the text or a line with content. -/
theorem content_skipBlankLines {state : State} (ended : Ended state.rest) :
    state.skipBlankLines.rest = [] ∨ StartsWith (fun c => !opensGap c) state.skipGap.rest := by
  by_cases done : state.skipBlankLines.rest = []
  · exact .inl done
  · have endedStart := ended_skipBlankLines ended
    obtain ⟨c, rest, split⟩ := List.exists_cons_of_ne_nil (skipSpace_ne_nil done endedStart)
    have noSpace : isSpace c = false := by
      have outside := List.head?_dropWhile_not isSpace state.skipBlankLines.rest
      have first : (state.skipBlankLines.rest.dropWhile isSpace).head? = .some c :=
        congrArg List.head? split
      rw [first] at outside
      exact outside
    refine .inr ⟨c, rest, split, ?_⟩
    cases opens : isLineBreak c || c == ';' with
    | false =>
        have outside : opensGap c = (isSpace c || (isLineBreak c || c == ';')) :=
          Bool.or_assoc _ _ _
        dsimp only
        rw [outside, noSpace, opens]
        rfl
    | true =>
        have ends := isSome_endLine? (ended_skipSpace endedStart) ⟨c, rest, split, opens⟩
        rw [endLine?_skipBlankLines] at ends
        cases ends

/-- Where no item starts behind a gap, the text is used up or goes on with a closing bracket. -/
theorem closer_of_absent {nesting : Nat} {state : State} (ended : Ended state.rest)
    (absent : readItem nesting state.skipGap = .absent state.skipGap) :
    state.skipGap.rest = [] ∨ StartsWith isCloser state.skipGap.rest := by
  rcases content_skipBlankLines ended with done | ⟨c, rest, split, solid⟩
  · exact .inl (by rw [State.skipGap, skipSpace_of_nil done, done])
  · have ends := (readItem_eq_absent_iff.mp absent).2 c (by rw [split]; rfl)
    refine .inr ⟨c, rest, split, ?_⟩
    simp only [opensGap, isSpace, isLineBreak, endsNumber, isCloser] at ends solid ⊢
    simp at ends solid ⊢
    grind

/-! ## Explained failures -/

/-- Where the reply is a failure, the unread text shows its cause. -/
inductive Reply.Explained {α : Type} : Reply α → Prop where
  | found {value : α} {next : State} : Explained (.found value next)
  | absent {next : State} : Explained (.absent next)
  | failed {failure : Failure} {stop : State} :
      (∀ cause, failure = .problem cause → cause.shows stop.rest) →
      Explained (.failed failure stop)

namespace Reply.Explained

variable {α β : Type} {reply : Reply α}

private theorem refuse {state : State} {cause : Problem} (shows : cause.shows state.rest) :
    (state.refuse cause : Reply α).Explained := by
  refine .failed ?_
  rintro _ ⟨⟩
  exact shows

private theorem failure {failure : Failure} {stop : State}
    (explained : (.failed failure stop : Reply α).Explained) :
    (.failed failure stop : Reply β).Explained := by
  cases explained with
  | failed shows => exact .failed shows

private theorem map {f : α → β} (explained : reply.Explained) : (reply.map f).Explained := by
  cases explained with
  | found => exact .found
  | absent => exact .absent
  | failed shows => exact .failed shows

private theorem bind {goOn : α → State → Reply β} (explained : reply.Explained)
    (further : ∀ value next, reply = .found value next → (goOn value next).Explained) :
    (reply.bind goOn).Explained := by
  cases explained with
  | found => exact further _ _ rfl
  | absent => exact .absent
  | failed shows => exact .failed shows

private theorem firstOf {readers : List (State → Reply α)} {state : State}
    (keep : ∀ reader ∈ readers, KeepsPlace reader)
    (each : ∀ reader ∈ readers, (reader state).Explained) :
    (firstOf readers state).Explained :=
  firstOf_of_forall keep .absent each

end Reply.Explained

/-! ## Tokens -/

private theorem readNumber_explained (state : State) : (readNumber state).Explained := by
  unfold readNumber
  dsimp only
  split
  · exact .absent
  · split
    · next c obstacle =>
      refine .refuse ?_
      dsimp only
      cases after : state.rest.dropWhile Char.isDigit with
      | nil =>
          rw [after] at obstacle
          cases obstacle
      | cons d after' =>
          rw [after, numberObstacle?] at obstacle
          cases ends : endsNumber d with
          | true => simp [ends] at obstacle
          | false =>
              obtain rfl : d = c := by simpa [ends] using obstacle
              exact ⟨ends, after', rfl⟩
    · split
      · exact .found
      · exact .failed fun _ same => by cases same

private theorem readLiteral_explained (level : Int) (text : List Char) (line : Int) :
    (readLiteral level text line).Explained := by
  fun_induction readLiteral level text line with
  | case1 line => exact .refuse rfl
  | case2 rest line => exact .found
  | case3 line => exact .refuse ⟨fun _ member => (by cases member), [], rfl⟩
  | case4 c rest line meant escape ih => exact ih.map
  | case5 c rest line escape =>
      refine .refuse ⟨?_, rest, rfl⟩
      rintro _ ⟨⟩
      exact escape
  | case6 rest line ih => exact ih.map
  | case7 c rest line noQuote lone noEscape noPair ih => exact ih.map

private theorem readString_explained (state : State) : (readString state).Explained := by
  rw [readString]
  cases state.take? '\'' with
  | none => exact .absent
  | some inside => exact (readLiteral_explained _ _ _).map

private theorem readSymbol_explained (state : State) : (readSymbol state).Explained := by
  unfold readSymbol
  dsimp only
  split
  · exact .absent
  · exact .found

private theorem refuseBracket_explained (state : State) : (refuseBracket state).Explained := by
  unfold refuseBracket
  split
  · next rest split => exact .refuse ⟨'[', rest, split, rfl⟩
  · next rest split => exact .refuse ⟨'(', rest, split, rfl⟩
  · exact .absent

/-! ## Items -/

private theorem headProblem?_shows {node : Node} {problem : Problem}
    (refused : headProblem? node = some problem) (rest : List Char) : problem.shows rest := by
  cases node <;> cases refused <;> exact trivial

section

variable {nesting : Nat}
  (items : ∀ {state : State}, Ended state.rest → (readItem nesting state).Explained)

include items

private theorem readHead_explained {state : State} (ended : Ended state.rest) :
    (readHead (readItem nesting) state).Explained := by
  refine (items ended).bind fun node next _ => ?_
  cases refused : headProblem? node with
  | some problem => exact .refuse (headProblem?_shows refused next.rest)
  | none => exact .found

/-- Items end early where the text is used up or goes on with the bracket that does not close
them. -/
private theorem itemsUntil_explained {closer other : Char} {problem : Nat → Problem}
    (brackets : ∀ c, isCloser c = true → (c == closer) = false → (c == other) = true)
    (shows : ∀ (count : Nat) (rest : List Char), rest = [] ∨ StartsWith (· == other) rest →
      (problem count).shows rest)
    (count : Nat) {state : State} (ended : Ended state.rest) :
    (itemsUntil nesting closer problem count state).Explained := by
  -- Every item takes up some text.
  induction long : state.rest.length using Nat.strongRecOn generalizing state count with
  | ind size ih =>
      have shorter := length_skipGap_le state
      have endedStart : Ended state.skipGap.rest := ended_skipSpace (ended_skipBlankLines ended)
      rw [itemsUntil_eq]
      cases result : readItem nesting state.skipGap with
      | found node next =>
          have less := consumes_readItem nesting result
          obtain ⟨text, advances, -, -⟩ := readItem_sound nesting endedStart result
          exact (ih _ (by omega) _ (Ended.of_advances endedStart advances) rfl).map
      | failed failure stop =>
          have first := items endedStart
          rw [result] at first
          exact first.failure
      | absent =>
          obtain rfl := keepsPlace_readItem nesting result
          cases taken : state.skipGap.take? closer with
          | some next => exact .found
          | none =>
              refine .refuse (shows count _ ?_)
              refine (closer_of_absent ended result).imp_right ?_
              rintro ⟨c, rest, split, closes⟩
              have unlike := take?_eq_none_iff.mp taken c (by rw [split]; rfl)
              exact ⟨c, rest, split, brackets c closes unlike⟩

private theorem readArray_explained {state : State} (ended : Ended state.rest) :
    (readArray (readItem nesting) state).Explained := by
  rw [readArray_eq]
  cases taken : state.take? '[' with
  | none => exact .absent
  | some inside =>
      have endedInside := Ended.of_advances ended (.of_take? taken rfl)
      exact (itemsUntil_explained items (by grind [isCloser]) (fun _ _ => id) 0 endedInside).map

private theorem readParenthesised_explained {state : State} (ended : Ended state.rest) :
    (readParenthesised (readItem nesting) state).Explained := by
  rw [readParenthesised_eq]
  cases taken : state.take? '(' with
  | none => exact .absent
  | some inside =>
      have endedInside := Ended.of_advances ended (.of_take? taken rfl)
      have endedStart : Ended inside.skipGap.rest :=
        ended_skipSpace (ended_skipBlankLines endedInside)
      have first := readHead_explained items endedStart
      dsimp only
      cases result : readHead (readItem nesting) inside.skipGap with
      | failed failure stop =>
          rw [result] at first
          exact first.failure
      | absent =>
          obtain rfl := keepsPlace_readHead nesting result
          exact .refuse (closer_of_absent endedInside (readHead_eq_absent_iff.mp result))
      | found head next =>
          obtain ⟨text, advances, -, -⟩ :=
            readItem_sound nesting endedStart (readHead_eq_found_iff.mp result).1
          have endedNext := Ended.of_advances endedStart advances
          exact (itemsUntil_explained items (by grind [isCloser]) (fun _ _ => id) 0 endedNext).map

end

private theorem readItem_explained (nesting : Nat) {state : State} (ended : Ended state.rest) :
    (readItem nesting state).Explained :=
  readItem_induction
    (motive := fun reader => ∀ {state : State}, Ended state.rest → (reader state).Explained)
    (fun _ keep each _ ended => .firstOf keep fun reader member => each reader member ended)
    (fun _ => readNumber_explained _) (fun _ => readString_explained _)
    (fun _ => refuseBracket_explained _) (fun _ => readSymbol_explained _)
    (fun _ => readArray_explained) (fun _ => readParenthesised_explained) nesting ended

/-! ## Phrases -/

private theorem arguments_explained (nesting : Nat) {state : State} (ended : Ended state.rest) :
    (arguments nesting state).Explained := by
  induction long : state.rest.length using Nat.strongRecOn generalizing state with
  | ind size ih =>
      have shorter := state.length_skipSpace_le
      have endedStart := ended_skipSpace ended
      rw [arguments_eq]
      cases result : readItem nesting state.skipSpace with
      | absent => exact .found
      | failed failure stop =>
          have first := readItem_explained nesting endedStart
          rw [result] at first
          exact first.failure
      | found node next =>
          have less := consumes_readItem nesting result
          obtain ⟨text, advances, -, -⟩ := readItem_sound nesting endedStart result
          exact (ih _ (by omega) (Ended.of_advances endedStart advances) rfl).map

theorem phrase_explained (nesting : Nat) {state : State} (ended : Ended state.rest) :
    (phrase nesting state).Explained := by
  rw [phrase_eq]
  refine (readHead_explained (readItem_explained nesting) ended).bind fun head next found => ?_
  obtain ⟨text, advances, -, -⟩ :=
    readItem_sound nesting ended (readHead_eq_found_iff.mp found).1
  exact (arguments_explained nesting (Ended.of_advances ended advances)).map

end Reader

end IndentLisp
