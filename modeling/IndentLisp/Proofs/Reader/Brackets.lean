import IndentLisp.Node.Brackets
import IndentLisp.Proofs.Program.Literals
import IndentLisp.Proofs.Reader.Stops

/-!
# Brackets and what is read

The readers of items and phrases pass over a text as the scan for open brackets does: an item leaves
the brackets as they were and counts as one. Where a reader is refused because of a bracket, the
scan of what has been read shows the bracket and how many items stand in it.
-/

set_option autoImplicit false

namespace IndentLisp

open Grammar Reader

namespace Lexer

/-! ## The scan -/

private theorem bracketsFrom_comment {comment ending : List Char} (isComment : Comment comment)
    (isEnding : LineEnd ending) (opened : List OpenBracket) (rest : List Char) :
    bracketsFrom opened (comment ++ ending ++ rest) = bracketsFrom opened (ending ++ rest) := by
  cases isComment with
  | none => rfl
  | @some text inside =>
      have dropped : dropComment (';' :: text ++ ending ++ rest) = ending ++ rest :=
        dropComment_append (.some inside) isEnding rest
      rw [List.cons_append, List.cons_append, bracketsFrom]
      exact congrArg (bracketsFrom opened) dropped

/-- A character that opens neither a comment nor a literal and is no bracket. -/
private theorem bracketsFrom_cons {c : Char} (plain : c ∉ [';', '\'', '[', '(', ']', ')'])
    (opened : List OpenBracket) (rest : List Char) :
    bracketsFrom opened (c :: rest) =
      if endsSymbol c then bracketsFrom opened rest
      else bracketsFrom (countItem opened) (rest.dropWhile fun c => !endsSymbol c) := by
  simp only [List.mem_cons, List.not_mem_nil, or_false, not_or] at plain
  obtain ⟨noComment, noLiteral, noBracket, noParenthesis, noCloser, noEnd⟩ := plain
  rw [bracketsFrom] <;> assumption

private theorem bracketsFrom_space {c : Char} (space : isSpace c = true) (opened : List OpenBracket)
    (rest : List Char) : bracketsFrom opened (c :: rest) = bracketsFrom opened rest := by
  obtain rfl | rfl : c = ' ' ∨ c = '\t' := by simpa [isSpace] using space
  all_goals exact bracketsFrom_cons (by decide) opened rest

private theorem bracketsFrom_spaces {spaces : List Char} (blank : ∀ c ∈ spaces, isSpace c = true)
    (opened : List OpenBracket) (rest : List Char) :
    bracketsFrom opened (spaces ++ rest) = bracketsFrom opened rest := by
  induction spaces with
  | nil => rfl
  | cons c spaces ih =>
      obtain ⟨space, others⟩ := List.forall_mem_cons.mp blank
      rw [List.cons_append, bracketsFrom_space space, ih others]

private theorem bracketsFrom_lineEnd {ending : List Char} (isEnding : LineEnd ending)
    (opened : List OpenBracket) (rest : List Char) :
    bracketsFrom opened (ending ++ rest) = bracketsFrom opened rest := by
  have feed : bracketsFrom opened ('\n' :: rest) = bracketsFrom opened rest :=
    bracketsFrom_cons (by decide) opened rest
  cases isEnding with
  | feed => exact feed
  | «return» => exact bracketsFrom_cons (by decide) opened rest
  | returnFeed => exact (bracketsFrom_cons (by decide) opened ('\n' :: rest)).trans feed

private theorem bracketsFrom_gap {gap : List Char} (isGap : Gap gap) (opened : List OpenBracket)
    (rest : List Char) : bracketsFrom opened (gap ++ rest) = bracketsFrom opened rest := by
  induction isGap with
  | nil => rfl
  | space space _ ih => rw [List.cons_append, bracketsFrom_space space, ih]
  | lineEnd isComment isEnding _ ih =>
      rw [List.append_assoc, bracketsFrom_comment isComment isEnding,
        bracketsFrom_lineEnd isEnding, ih]

private theorem bracketsFrom_opener {c : Char}
    (opens : c = '[' ∨ c = '(') (opened : List OpenBracket) (rest : List Char) :
    bracketsFrom opened (c :: rest) = bracketsFrom (⟨c, 0⟩ :: opened) rest := by
  rcases opens with rfl | rfl <;> rw [bracketsFrom]

private theorem bracketsFrom_closer {c : Char}
    (closes : c = ']' ∨ c = ')') (opened : List OpenBracket) (rest : List Char) :
    bracketsFrom opened (c :: rest) = bracketsFrom (countItem opened.tail) rest := by
  rcases closes with rfl | rfl <;> rw [bracketsFrom]

/-- A number or a symbol is scanned as one word. -/
private theorem bracketsFrom_word {word rest : List Char} (nonempty : word ≠ [])
    (letters : ∀ c ∈ word, (!endsSymbol c) = true)
    (ends : StartsWithout (fun c => !endsSymbol c) rest) (opened : List OpenBracket) :
    bracketsFrom opened (word ++ rest) = bracketsFrom (countItem opened) rest := by
  obtain ⟨c, word, rfl⟩ := List.exists_cons_of_ne_nil nonempty
  obtain ⟨letter, others⟩ := List.forall_mem_cons.mp letters
  have plain : c ∉ [';', '\'', '[', '(', ']', ')'] := by
    intro member
    simp only [List.mem_cons, List.not_mem_nil, or_false] at member
    rcases member with rfl | rfl | rfl | rfl | rfl | rfl <;> cases letter
  have inside : ¬ endsSymbol c = true := by simpa using letter
  rw [List.cons_append, bracketsFrom_cons plain, if_neg inside,
    dropWhile_append_of_without others ends]

private theorem bracketsFrom_literal {written denoted : List Char}
    (literal : Literal written denoted) (opened : List OpenBracket) (rest : List Char) :
    bracketsFrom opened ('\'' :: written ++ '\'' :: rest) =
      bracketsFrom (countItem opened) rest := by
  have closed := closeLiteral?_append literal rest
  rw [List.cons_append, bracketsFrom]
  split
  · next inside after other =>
    cases closed.symm.trans other
    rfl
  · next none => cases closed.symm.trans none

end Lexer

/-- The brackets that are open where a text is refused for a problem. Most problems do not depend
on them. -/
def Problem.opens : Problem → List OpenBracket → Prop
  | arrayItems count, opened => ∃ outer, opened = ⟨'[', count⟩ :: outer
  | noHead, opened => ∃ outer, opened = ⟨'(', 0⟩ :: outer
  -- The head is one of the items.
  | arguments count, opened => ∃ outer, opened = ⟨'(', count + 1⟩ :: outer
  | malformedLine, opened => opened = []
  | _, _ => True

namespace Reader

open Lexer

private theorem StartsWithout.of_prefix {class_ : Char → Bool} {text beginning : List Char}
    (without : StartsWithout class_ text) (begins : beginning <+: text) :
    StartsWithout class_ beginning := by
  obtain ⟨rest, rfl⟩ := begins
  intro c first
  exact without c (by rw [List.head?_append, Option.mem_def.mp first]; rfl)

/-! ## Reading on -/

/-- Reading on from the first state leads to the second one. Before what is read the first brackets
are open, and behind it the second ones, however much is scanned of the text that follows. -/
def Leads (opened : List OpenBracket) (state : State) (opened' : List OpenBracket)
    (next : State) : Prop :=
  ∃ text, state.rest = text ++ next.rest ∧
    ∀ more, more <+: next.rest → bracketsFrom opened (text ++ more) = bracketsFrom opened' more

namespace Leads

variable {opened opened' opened'' : List OpenBracket} {state middle next : State}

theorem of_rest (same : next.rest = state.rest) : Leads opened state opened next :=
  ⟨[], same.symm, fun _ _ => rfl⟩

private theorem trans (first : Leads opened state opened' middle)
    (second : Leads opened' middle opened'' next) : Leads opened state opened'' next := by
  obtain ⟨left, split, scanned⟩ := first
  obtain ⟨right, split', scanned'⟩ := second
  refine ⟨left ++ right, ?_, ?_⟩
  · rw [split, split', List.append_assoc]
  · intro more begins
    have further : right ++ more <+: middle.rest := by
      rw [split']
      exact (List.prefix_append_right_inj right).mpr begins
    rw [List.append_assoc, scanned _ further, scanned' more begins]

theorem ended (leads : Leads opened state opened' next) (ended : Ended state.rest) :
    Ended next.rest := by
  obtain ⟨text, split, -⟩ := leads
  rw [split] at ended
  exact Ended.of_append ended

/-- Where reading on leads, the scan of the text that has been read has found the open brackets. -/
theorem brackets (leads : Leads opened state opened' next) :
    ∃ text, state.rest = text ++ next.rest ∧ bracketsFrom opened text = opened' := by
  obtain ⟨text, split, scanned⟩ := leads
  refine ⟨text, split, ?_⟩
  have whole := scanned [] List.nil_prefix
  rwa [List.append_nil, bracketsFrom] at whole

theorem skipSpace (opened : List OpenBracket) (state : State) :
    Leads opened state opened state.skipSpace := by
  obtain ⟨spaces, blank, advances⟩ := skipSpace_advances state
  exact ⟨spaces, advances.rest, fun more _ => bracketsFrom_spaces blank opened more⟩

theorem skipBlankLines (opened : List OpenBracket) (state : State) :
    Leads opened state opened state.skipBlankLines := by
  obtain ⟨gap, isGap, advances⟩ := skipBlankLines_advances state
  exact ⟨gap, advances.rest, fun more _ => bracketsFrom_gap isGap opened more⟩

private theorem skipGap (opened : List OpenBracket) (state : State) :
    Leads opened state opened state.skipGap :=
  (skipBlankLines opened state).trans (skipSpace opened _)

theorem endLine? (ended : state.endLine? = some next) : Leads opened state opened next := by
  obtain ⟨comment, ending, isComment, isEnding, -, advances⟩ := endLine?_eq_some_iff.mp ended
  refine ⟨comment ++ ending, advances.rest, fun more _ => ?_⟩
  rw [bracketsFrom_comment isComment isEnding, bracketsFrom_lineEnd isEnding]

private theorem of_take? {c : Char} (taken : state.take? c = some next)
    (scanned : ∀ rest, bracketsFrom opened (c :: rest) = bracketsFrom opened' rest) :
    Leads opened state opened' next :=
  ⟨[c], (take?_eq_some_iff.mp taken).1, fun more _ => scanned more⟩

private theorem of_word {word after : List Char} {line level line' level' : Int}
    (nonempty : word ≠ []) (letters : ∀ c ∈ word, (!endsSymbol c) = true)
    (ends : StartsWithout (fun c => !endsSymbol c) after) :
    Leads opened ⟨word ++ after, line, level⟩ (countItem opened) ⟨after, line', level'⟩ :=
  ⟨word, rfl, fun _ begins =>
    bracketsFrom_word nonempty letters (StartsWithout.of_prefix ends begins) opened⟩

end Leads

/-! ## Replies -/

/-- The reply leads to the brackets given last, or it is a failure and the open brackets and the
unread text give the evidence for its cause. -/
inductive Reply.Traced {α : Type} (evidence : Problem → List OpenBracket → List Char → Prop)
    (opened closed : List OpenBracket) (state : State) : Reply α → Prop where
  | found {value : α} {next : State} :
      Leads opened state closed next → Traced evidence opened closed state (.found value next)
  | absent {next : State} : Traced evidence opened closed state (.absent next)
  | failed {failure : Failure} {stop : State} (text : List Char) :
      state.rest = text ++ stop.rest →
      (∀ cause, failure = .problem cause → evidence cause (bracketsFrom opened text) stop.rest) →
      Traced evidence opened closed state (.failed failure stop)

namespace Reply.Traced

variable {α β : Type} {evidence evidence' : Problem → List OpenBracket → List Char → Prop}
  {opened middle closed : List OpenBracket} {state next : State} {reply : Reply α}

theorem refuse {cause : Problem} (evident : evidence cause opened state.rest) :
    (state.refuse cause : Reply α).Traced evidence opened closed state := by
  refine .failed [] rfl ?_
  rintro _ ⟨⟩
  rwa [bracketsFrom]

theorem after (leads : Leads opened state middle next)
    (traced : reply.Traced evidence middle closed next) :
    reply.Traced evidence opened closed state := by
  cases traced with
  | found further => exact .found (leads.trans further)
  | absent => exact .absent
  | @failed _ stop right split' evident =>
      obtain ⟨left, split, scanned⟩ := leads
      refine .failed (left ++ right) ?_ fun cause isCause => ?_
      · rw [split, split', List.append_assoc]
      · rw [scanned right (by rw [split']; exact List.prefix_append right stop.rest)]
        exact evident cause isCause

theorem failure {failure : Failure} {stop : State}
    (traced : (.failed failure stop : Reply α).Traced evidence opened middle state) :
    (.failed failure stop : Reply β).Traced evidence opened closed state := by
  cases traced with
  | failed text split evident => exact .failed text split evident

theorem map {f : α → β} (traced : reply.Traced evidence opened closed state) :
    (reply.map f).Traced evidence opened closed state := by
  cases traced with
  | found leads => exact .found leads
  | absent => exact .absent
  | failed text split evident => exact .failed text split evident

theorem bind {goOn : α → State → Reply β} (traced : reply.Traced evidence opened middle state)
    (further : ∀ value next, reply = .found value next →
      (goOn value next).Traced evidence middle closed next) :
    (reply.bind goOn).Traced evidence opened closed state := by
  cases traced with
  | found leads => exact .after leads (further _ _ rfl)
  | absent => exact .absent
  | failed text split evident => exact .failed text split evident

private theorem firstOf {readers : List (State → Reply α)}
    (keep : ∀ reader ∈ readers, KeepsPlace reader)
    (each : ∀ reader ∈ readers, (reader state).Traced evidence opened closed state) :
    (firstOf readers state).Traced evidence opened closed state :=
  firstOf_of_forall keep .absent each

end Reply.Traced

/-! ## Tokens -/

/-- The open brackets alone give the evidence. -/
def byBrackets (cause : Problem) (opened : List OpenBracket) (_ : List Char) : Prop :=
  cause.opens opened

section

variable (opened : List OpenBracket)

private theorem readNumber_traced (state : State) :
    (readNumber state).Traced byBrackets opened (countItem opened) state := by
  obtain ⟨text, line, level⟩ := state
  obtain ⟨digits, after, rfl, decimal, outside⟩ := exists_run Char.isDigit text
  have letters := fun c member => not_endsSymbol_of_isDigit (decimal c member)
  rw [readNumber_append decimal outside]
  by_cases empty : digits = []
  · rw [if_pos empty]
    exact .absent
  · rw [if_neg empty]
    cases obstacle : numberObstacle? after with
    | some c =>
        refine .failed digits rfl ?_
        rintro _ ⟨⟩
        exact trivial
    | none =>
        have ends : StartsWithout (fun c => !endsSymbol c) after := by
          intro c first
          obtain ⟨rest, rfl⟩ := List.head?_eq_some_iff.mp first
          cases ends : endsNumber c with
          | false => simp [numberObstacle?, ends] at obstacle
          | true => simpa using endsSymbol_of_endsNumber ends
        dsimp only
        split
        · exact .found (.of_word empty letters ends)
        · exact .failed digits rfl fun _ same => by cases same

private theorem readSymbol_traced (state : State) :
    (readSymbol state).Traced byBrackets opened (countItem opened) state := by
  obtain ⟨text, line, level⟩ := state
  obtain ⟨name, after, rfl, letters, outside⟩ := exists_run (fun c => !endsSymbol c) text
  rw [readSymbol_append letters outside]
  split
  · exact .absent
  · next nonempty => exact .found (.of_word nonempty letters outside)

/-- A literal is refused for reasons of its own. -/
private theorem opens_of_readLiteral_failed {level line : Int} {text : List Char} {cause : Problem}
    {stop : State} (failed : readLiteral level text line = .failed (.problem cause) stop) :
    cause.opens opened := by
  fun_induction readLiteral level text line with
  | case1 | case3 | case5 =>
    cases failed
    exact trivial
  | case2 => cases failed
  | case4 _ _ _ _ _ ih | case6 _ _ ih | case7 _ _ _ _ _ _ _ ih =>
    exact ih (Reply.map_eq_failed_iff.mp failed)

private theorem readString_traced (state : State) :
    (readString state).Traced byBrackets opened (countItem opened) state := by
  have stops := readString_stops state
  rw [readString] at stops ⊢
  cases taken : state.take? '\'' with
  | none => exact .absent
  | some inside =>
      rw [taken] at stops
      dsimp only at stops ⊢
      cases result : readLiteral inside.level inside.rest inside.line with
      | absent => exact .absent
      | found denoted next =>
          obtain ⟨written, literal, split⟩ := literal_of_readLiteral result
          refine .found ⟨'\'' :: written ++ ['\''], ?_, fun more _ => ?_⟩
          · rw [(take?_eq_some_iff.mp taken).1, split]
            simp
          · rw [List.append_assoc]
            exact bracketsFrom_literal literal opened more
      | failed failure stop =>
          rw [result] at stops
          cases stops.reaches_of_failed with
          | failed passes =>
              refine .failed _ passes.rest fun cause isCause => ?_
              subst isCause
              exact opens_of_readLiteral_failed _ result

private theorem refuseBracket_traced (state : State) :
    (refuseBracket state).Traced byBrackets opened (countItem opened) state := by
  unfold refuseBracket
  split
  · exact .refuse trivial
  · exact .refuse trivial
  · exact .absent

end

/-! ## Items -/

section

variable {nesting : Nat}
  (items : ∀ (opened : List OpenBracket) (state : State),
    (readItem nesting state).Traced byBrackets opened (countItem opened) state)

include items

private theorem readHead_traced (opened : List OpenBracket) (state : State) :
    (readHead (readItem nesting) state).Traced byBrackets opened (countItem opened) state := by
  refine (items opened state).bind fun node next _ => ?_
  cases node with
  | number | string | array => exact .refuse trivial
  | _ => exact .found (.of_rest rfl)

/-- The problem is refused with the count of the items that the scan has found in the bracket,
where so many stand in it before the first that is counted. -/
private theorem itemsUntil_traced {opener closer : Char} {problem : Nat → Problem} {before : Nat}
    {outer : List OpenBracket}
    (closes : closer = ']' ∨ closer = ')')
    (opens : ∀ count, (problem count).opens (⟨opener, count + before⟩ :: outer))
    (count : Nat) (state : State) :
    (itemsUntil nesting closer problem count state).Traced byBrackets
      (⟨opener, count + before⟩ :: outer) (countItem outer) state := by
  -- Every item takes up some text.
  induction long : state.rest.length using Nat.strongRecOn generalizing state count with
  | ind size ih =>
      have shorter := length_skipGap_le state
      have first := items (⟨opener, count + before⟩ :: outer) state.skipGap
      rw [itemsUntil_eq]
      refine .after (.skipGap _ state) ?_
      cases result : readItem nesting state.skipGap with
      | failed failure stop =>
          rw [result] at first
          exact first.failure
      | found node next =>
          have less := consumes_readItem nesting result
          have others := ih _ (by omega) (count + 1) next rfl
          rw [Nat.add_right_comm] at others
          rw [result] at first
          cases first with
          | found leads => exact .after leads others.map
      | absent =>
          obtain rfl := keepsPlace_readItem nesting result
          cases taken : state.skipGap.take? closer with
          | some next => exact .found (.of_take? taken (bracketsFrom_closer closes _))
          | none => exact .refuse (opens count)

private theorem readArray_traced (opened : List OpenBracket) (state : State) :
    (readArray (readItem nesting) state).Traced byBrackets opened (countItem opened) state := by
  rw [readArray_eq]
  cases taken : state.take? '[' with
  | none => exact .absent
  | some inside =>
      have opens (count : Nat) :
          (Problem.arrayItems count).opens (⟨'[', count + 0⟩ :: opened) := ⟨opened, rfl⟩
      exact .after (.of_take? taken (bracketsFrom_opener (.inl rfl) opened))
        (itemsUntil_traced items (.inl rfl) opens 0 inside).map

private theorem readParenthesised_traced (opened : List OpenBracket) (state : State) :
    (readParenthesised (readItem nesting) state).Traced byBrackets opened (countItem opened)
      state := by
  rw [readParenthesised_eq]
  cases taken : state.take? '(' with
  | none => exact .absent
  | some inside =>
      have head := readHead_traced items (⟨'(', 0⟩ :: opened) inside.skipGap
      refine .after (.of_take? taken (bracketsFrom_opener (.inr rfl) opened)) ?_
      refine .after (.skipGap _ inside) ?_
      dsimp only
      cases result : readHead (readItem nesting) inside.skipGap with
      | absent =>
          obtain rfl := keepsPlace_readHead nesting result
          exact .refuse ⟨opened, rfl⟩
      | failed failure stop =>
          rw [result] at head
          exact head.failure
      | found node next =>
          rw [result] at head
          have opens (count : Nat) :
              (Problem.arguments count).opens (⟨'(', count + 1⟩ :: opened) := ⟨opened, rfl⟩
          cases head with
          | found leads =>
              exact .after leads (itemsUntil_traced items (.inr rfl) opens 0 next).map

end

private theorem readItem_traced (nesting : Nat) (opened : List OpenBracket) (state : State) :
    (readItem nesting state).Traced byBrackets opened (countItem opened) state :=
  readItem_induction
    (motive := fun reader => ∀ opened state,
      (reader state).Traced byBrackets opened (countItem opened) state)
    (fun _ keep each opened state =>
      .firstOf keep fun reader member => each reader member opened state)
    readNumber_traced readString_traced refuseBracket_traced readSymbol_traced
    (fun _ => readArray_traced) (fun _ => readParenthesised_traced) nesting opened state

/-! ## Phrases -/

/-- The arguments on a line stand outside brackets. -/
private theorem arguments_traced (nesting : Nat) (state : State) :
    (arguments nesting state).Traced byBrackets [] [] state := by
  induction long : state.rest.length using Nat.strongRecOn generalizing state with
  | ind size ih =>
      have shorter := state.length_skipSpace_le
      have first := readItem_traced nesting [] state.skipSpace
      rw [arguments_eq]
      refine .after (.skipSpace [] state) ?_
      cases result : readItem nesting state.skipSpace with
      | absent => exact .found (.of_rest rfl)
      | failed failure stop =>
          rw [result] at first
          exact first.failure
      | found node next =>
          have less := consumes_readItem nesting result
          have others := ih _ (by omega) next rfl
          rw [result] at first
          cases first with
          | found leads => exact .after leads others.map

theorem phrase_traced (nesting : Nat) (state : State) :
    (phrase nesting state).Traced byBrackets [] [] state := by
  rw [phrase_eq]
  refine (readHead_traced (readItem_traced nesting) [] state).bind fun head next _ => ?_
  exact (arguments_traced nesting next).map

end Reader

end IndentLisp
