import IndentLisp.Proofs.Reader.FollowingText
import IndentLisp.Proofs.Reader.LineMove
import IndentLisp.Proofs.RoundTrip

/-!
# Programs one after the other

A text that ends in a line feed is listed in the same way before any other text. So the listing of
two programs, one after the other, is that of the first with that of the second behind it, and the
forests are put side by side.
-/

set_option autoImplicit false

namespace IndentLisp

open Grammar Reader

namespace Reader

/-! ## Listing before more text -/

section

variable {nesting : Nat} {above : Option Nat} {state stop below : State} {depth : Nat}
  {value : Phrase}

private theorem FirstLine.lastLine (first : FirstLine nesting above state depth value stop below)
    (ended : Ended state.rest) : below.lastLine = state.lastLine := by
  obtain ⟨text, advances, written, -, -⟩ := first.written ended
  have joins := WrittenPhrase.joins written stop.rest
  rw [lastLine_endLine? first.ended, lastLine_of_advances advances joins,
    ← lastLine_skipBlankLines state, ← lastLine_skipSpace state.skipBlankLines]
  rfl

private theorem endsPhrase_of_endLine? {next : State} (ended : state.endLine? = some next)
    (more : List Char) : EndsPhrase (state.rest ++ more) := by
  obtain ⟨comment, ending, isComment, isEnding, -, advances⟩ := endLine?_eq_some_iff.mp ended
  rw [advances.rest]
  cases isComment <;> cases isEnding <;>
    exact ⟨startsWithout_cons.mpr rfl, startsWithout_cons.mpr rfl⟩

private theorem FirstLine.followedBy (first : FirstLine nesting above state depth value stop below)
    (ended : Ended state.rest) (more : List Char) :
    FirstLine nesting above (state.followedBy more) depth value (stop.followedBy more)
      (below.followedBy more) := by
  have filled : state.skipBlankLines.rest ≠ [] := by
    have more := first.more
    rw [State.atEnd, List.isEmpty_eq_false_iff] at more
    exact more
  have endedStart := ended_skipBlankLines ended
  have skipped : (state.followedBy more).skipBlankLines = state.skipBlankLines.followedBy more := by
    rcases skipBlankLines_followedBy ended more with ⟨empty, -⟩ | ⟨-, skipped⟩
    · exact absurd empty filled
    · exact skipped
  obtain ⟨text, advances, written, within, -⟩ := first.written ended
  have filledStop : stop.rest ≠ [] := by
    intro empty
    have last := first.ended
    rw [State.endLine?, empty] at last
    cases last
  have endedStop : Ended stop.rest :=
    Ended.of_advances (by exact ended_skipSpace endedStart) advances
  constructor
  · rw [skipped, State.atEnd, State.followedBy, List.isEmpty_eq_false_iff]
    exact List.append_ne_nil_of_left_ne_nil filled more
  · rw [skipped, tabs?_followedBy filled endedStart, first.tabs]
  · exact first.within
  · exact first.held
  · -- The phrase is derived, and a derivation looks at the first character behind it only.
    have same : stop.rest.head? = (stop.rest ++ more).head? :=
      (List.head?_append_of_ne_nil _ filledStop).symm
    have inside : value.nesting ≤ nesting - (depth + 1) := by omega
    have read := readPhrase_of_written (WrittenPhrase.congr_after written same)
      (endsPhrase_of_endLine? first.ended more) inside depth
    have start :
        ({ (state.followedBy more).skipBlankLines.skipSpace with level := depth } : State) =
          ⟨text ++ (stop.rest ++ more), state.skipBlankLines.line, depth⟩ := by
      have split : state.skipBlankLines.skipSpace.rest = text ++ stop.rest := advances.rest
      rw [skipped, skipSpace_followedBy filled endedStart, State.followedBy, split,
        List.append_assoc]
      rfl
    have behind : stop.followedBy more =
        ⟨stop.rest ++ more, state.skipBlankLines.line + lineEnds text, depth⟩ := by
      rw [advances.next_eq]
      rfl
    rw [start, behind]
    exact read
  · rw [endLine?_followedBy filledStop endedStop, first.ended]
    rfl

/-- The lines of a text are listed before those of the text behind it. -/
private theorem listing_followedBy {entries : List (Nat × Phrase)} (ended : Ended state.rest)
    (listed : listing nesting above state = .ok entries) (more : List Char) :
    ListsThen (listing nesting above (state.followedBy more)) entries
      (listing nesting (depthAbove above (entries.map Prod.fst))
        ⟨more, state.lastLine, state.level⟩) := by
  induction long : state.rest.length using Nat.strongRecOn generalizing above state entries with
  | ind size ih =>
      rcases exists_firstLine listed with ⟨done, rfl⟩ |
        ⟨depth, value, stop, below, rest, first, following, rfl⟩
      · rcases skipBlankLines_followedBy ended more with ⟨-, skipped⟩ | ⟨some, -⟩
        · have last : state.skipBlankLines.line = state.lastLine := by
            rw [← lastLine_skipBlankLines, State.lastLine, done]
            exact (Int.add_zero _).symm
          rw [last] at skipped
          have same : listing nesting above (state.followedBy more) =
              listing nesting above ⟨more, state.lastLine, state.level⟩ := by
            have here := skipped.trans
              (skipBlankLines_withLevel state.level ⟨more, state.lastLine, state.level⟩)
            exact listing_of_skipBlankLines here
          rw [ListsThen, same]
          change _ = (listing nesting above ⟨more, state.lastLine, state.level⟩).map ([] ++ ·)
          cases listing nesting above ⟨more, state.lastLine, state.level⟩ <;> rfl
        · exact absurd done some
      · have shorter := first.length_lt
        obtain ⟨_, -, -, -, endedBelow⟩ := first.written ended
        have rest := ih _ (by omega) endedBelow following rfl
        rw [first.lastLine ended,
          ← listing_withLevel _ state.level ⟨more, state.lastLine, below.level⟩] at rest
        have here : ListsThen (listing nesting above (state.followedBy more)) [(depth, value)]
            (listing nesting (some depth) (below.followedBy more)) :=
          (first.followedBy ended more).listing_eq
        exact here.trans rest

/-- Only a text that starts with an indented line is listed differently behind other lines. -/
private theorem listing_none_congr (above : Option Nat)
    (opens : listing nesting none state ≠
      .error (.diagnosed ⟨.indentedStart, state.skipBlankLines.line⟩)) :
    listing nesting above state = listing nesting none state := by
  by_cases done : state.skipBlankLines.atEnd = true
  · rw [listing_of_atEnd done, listing_of_atEnd done]
  · rw [Reader.listing_eq, if_neg done] at opens ⊢
    rw [Reader.listing_eq, if_neg done]
    cases tabs : state.skipBlankLines.tabs? with
    | none => rfl
    | some count =>
        rw [tabs] at opens
        dsimp only at opens ⊢
        by_cases within : depthLimit none < count
        · rw [if_pos within] at opens
          exact absurd rfl opens
        · have outer : ¬ depthLimit above < count := by
            rw [depthLimit] at within
            omega
          rw [if_neg within, if_neg outer]

end

end Reader

namespace Forest

private theorem nodes_append (left right : Forest Phrase) :
    (left.append right).nodes = left.nodes ++ right.nodes := by
  induction left with
  | empty => rfl
  | cons root below others _ ih =>
      obtain ⟨line, starts⟩ := exists_startsOn below
      rw [append, SourceLine.nodes_cons root _ starts, SourceLine.nodes_cons root _ starts, ih,
        List.cons_append]

end Forest

/-! ## Two programs -/

def downBy (count : Nat) : LineMove where
  moved line := line + count
  later _ := True
  later_succ _ := trivial
  moved_succ {line} _ := by omega

/-- The state in which the second of two texts is read. -/
def State.behind (first second : String) : State :=
  ⟨terminated second.toList, 1 + lineEnds first.toList, -1⟩

section

variable {nesting : Nat} {first second : String} {forest : Forest Phrase}

private theorem exists_forest_of_fed {children : List Node} {line : Int}
    (fed : first = "" ∨ first.toList.getLast? = some '\n')
    (parsed : parse nesting first = .ok (.block children line)) :
    ∃ forest : Forest Phrase, children = forest.nodes ∧ Ended first.toList ∧
      listing nesting none ⟨first.toList, 1, -1⟩ = .ok (forest.preorder 0) := by
  rcases fed with rfl | feed
  · have empty := parsed.symm.trans (parse_empty nesting)
    obtain ⟨rfl, -⟩ := Node.block.inj (Except.ok.inj empty)
    exact ⟨.empty, rfl, nofun, listing_of_atEnd (by rw [skipBlankLines_eq_self rfl]; rfl)⟩
  · obtain ⟨forest, _, same, -, listed⟩ := exists_forest_of_parse parsed
    rw [State.start, terminated_of_feed feed] at listed
    refine ⟨forest, (Node.block.inj same).1, ?_, listed⟩
    intro c last
    rw [feed] at last
    exact (Option.some.inj last).symm

/-- The listing of two texts is that of the first, and then that of the second as it is read
there. -/
private theorem listing_append (ended : Ended first.toList) (some : second ≠ "")
    (listed : listing nesting none ⟨first.toList, 1, -1⟩ = .ok (forest.preorder 0))
    (opens : listing nesting none (State.behind first second) ≠
      .error (.diagnosed ⟨.indentedStart, (State.behind first second).skipBlankLines.line⟩)) :
    ListsThen (listing nesting none (.start (first ++ second))) (forest.preorder 0)
      (listing nesting none (State.behind first second)) := by
  have both := @listing_followedBy nesting none ⟨first.toList, 1, -1⟩ _ ended listed
    (terminated second.toList)
  have filled : second.toList ≠ [] := by
    intro empty
    exact some (String.toList_eq_nil_iff.mp empty)
  have start : State.start (first ++ second) =
      State.followedBy ⟨first.toList, 1, -1⟩ (terminated second.toList) := by
    rw [State.start, String.toList_append, terminated_append filled]
    rfl
  rw [start, ListsThen, ← listing_none_congr (depthAbove none _) opens]
  exact both

private theorem parse_append_of_found {others : List Node} {line : Int} {stop : State}
    (ended : Ended first.toList) (some : second ≠ "")
    (listed : listing nesting none ⟨first.toList, 1, -1⟩ = .ok (forest.preorder 0))
    (found : program nesting (State.behind first second) = .found ⟨others, line⟩ stop) :
    ∃ start, parse nesting (first ++ second) =
      .ok (.block (forest.nodes ++ others) start) := by
  have endedBehind : Ended (State.behind first second).rest := ended_start second
  rcases program_listing nesting endedBehind rfl with
    ⟨later, _, _, again, -, lists⟩ | ⟨_, _, again, -⟩
  · obtain ⟨rfl, -⟩ := Body.mk.inj (Reply.found.inj (found.symm.trans again)).1
    have whole := listing_append ended some listed (by rw [lists]; nofun)
    rw [lists, ListsThen] at whole
    have appended : listing nesting none (.start (first ++ second)) =
        .ok ((forest.append later).preorder 0) := by
      rw [whole, Forest.preorder_append]
      rfl
    rw [← Forest.nodes_append]
    obtain ⟨start, read, -⟩ := parse_of_listing appended
    exact ⟨start, read⟩
  · rw [found] at again
    cases again

private theorem parse_append_of_failed {failure : Failure} {stop : State}
    (ended : Ended first.toList) (some : second ≠ "")
    (listed : listing nesting none ⟨first.toList, 1, -1⟩ = .ok (forest.preorder 0))
    (failed : program nesting (State.behind first second) = .failed failure stop)
    (opens : failure ≠ .problem .indentedStart) :
    parse nesting (first ++ second) = .error (failure.atState stop) := by
  have endedBehind : Ended (State.behind first second).rest := ended_start second
  rcases program_listing nesting endedBehind rfl with
    ⟨_, _, _, again, -, -⟩ | ⟨_, _, again, lists⟩
  · rw [failed] at again
    cases again
  · obtain ⟨rfl, rfl⟩ := Reply.failed.inj (failed.symm.trans again)
    apply parse_of_listing_error
    refine (listing_append ended some listed ?_).error lists
    rw [lists]
    intro same
    cases failure with
    | numeralTooLong => cases same
    | problem cause =>
        obtain ⟨rfl, -⟩ := Diagnostic.mk.inj (ParseError.diagnosed.inj (Except.error.inj same))
        exact opens rfl

end

/-- The programs of two texts, the first of which ends in a line feed, are put one after the other
where the texts are, with the second one moved down. Where the second text has no program, neither
have both, unless it starts with an indented line. -/
theorem parse_append {nesting : Nat} {first second : String} {children : List Node} {line : Int}
    (fed : first = "" ∨ first.toList.getLast? = some '\n')
    (parsed : parse nesting first = .ok (.block children line)) :
    (∀ (others : List Node) (line' : Int), parse nesting second = .ok (.block others line') →
      ∃ start, parse nesting (first ++ second) =
        .ok (.block (children ++ others.map (Node.shiftLines (lineEnds first.toList))) start)) ∧
    (∀ refusal, parse nesting second = .error refusal →
      (∀ diagnostic, refusal = .diagnosed diagnostic →
        diagnostic.problem.message ≠ "Internal error (bug in a parser).") →
      parse nesting (first ++ second) = .error (refusal.mapLine (· + lineEnds first.toList))) := by
  by_cases some : second = ""
  · subst some
    rw [String.append_empty, parse_empty]
    refine ⟨?_, by rintro _ ⟨⟩⟩
    rintro others line' ⟨⟩
    exact ⟨line, by rw [List.map_nil, List.append_nil, parsed]⟩
  obtain ⟨forest, rfl, ended, listed⟩ := exists_forest_of_fed fed parsed
  -- The second program is read where it stands as it is read alone, but further down.
  have step : (downBy (lineEnds first.toList)).Shifts (.start second)
      (State.behind first second) := ⟨trivial, rfl⟩
  have moves := (downBy (lineEnds first.toList)).shift_movesLines
  rcases moves.program nesting (ended_start second) rfl step with
    ⟨others, line', stop, stop', found, found'⟩ | ⟨failure, stop, stop', failed, failed', moved⟩
  · have read : parse nesting second = .ok (.block others line') := by
      rw [parse, found]
      rfl
    rw [read]
    refine ⟨?_, by rintro _ ⟨⟩⟩
    rintro _ _ ⟨⟩
    exact parse_append_of_found ended some listed found'
  · have refused : parse nesting second = .error (failure.atState stop) := by rw [parse, failed]
    have moved : failure.atState stop' =
        (failure.atState stop).mapLine (· + lineEnds first.toList) :=
      Correspondence.atState_of_line failure moved
    rw [refused]
    refine ⟨by rintro _ _ ⟨⟩, ?_⟩
    rintro _ ⟨⟩ named
    rw [← moved]
    refine parse_append_of_failed ended some listed failed' ?_
    rintro rfl
    exact named _ rfl rfl

theorem parse_append_bodyProgram :
    "f ['x']\n\tg\n".toList.getLast? = some '\n' ∧ parse 2 "f ['x']\n\tg\n" = .ok bodyProgram ∧
      (∃ start, parse 2 ("f ['x']\n\tg\n" ++ "f ['x']\n\tg") =
        .ok (.block
          [.expression (.symbol "f" 1)
            [.array [.string "x" 1] 1, .block [.expression (.symbol "g" 2) [] true 2] 2] true 1,
          .expression (.symbol "f" 3)
            [.array [.string "x" 3] 3, .block [.expression (.symbol "g" 4) [] true 4] 4] true 3]
          start)) ∧
      parse 2 ("f ['x']\n\tg\n" ++ " f") = .error (.diagnosed ⟨.spacesInIndent, 3⟩) := by
  have fed : "f ['x']\n\tg\n".toList.getLast? = some '\n' := by decide
  have parsed : parse 2 "f ['x']\n\tg\n" = .ok bodyProgram := parse_bodyProgram
  have refused : parse 2 " f" = .error (.diagnosed ⟨.spacesInIndent, 1⟩) := by cbv
  obtain ⟨start, both⟩ := (parse_append (.inr fed) parsed).1 _ _ parse_bodyProgram
  refine ⟨fed, parsed, ⟨start, both.trans rfl⟩, ?_⟩
  exact (parse_append (.inr fed) parsed).2 _ refused (by rintro _ ⟨⟩; decide)

end IndentLisp
