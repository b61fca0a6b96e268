import IndentLisp.Proofs.Grammar.Derivation
import IndentLisp.Proofs.Reader.Advance

/-!
# Gaps

Skipping passes over exactly one gap, and over all of it: what follows starts neither with white
space nor with a line that is blank from here on.
-/

set_option autoImplicit false

namespace IndentLisp.Reader

open Grammar

/-- The characters with which a gap can start. -/
def opensGap (c : Char) : Bool := isSpace c || isLineBreak c || c == ';'

/-! ## Line ends -/

theorem dropLineEnd?_eq_some_iff {text rest : List Char} :
    dropLineEnd? text = some rest ↔
      ∃ ending, LineEnd ending ∧ text = ending ++ rest ∧ Joins ending rest := by
  constructor
  · intro dropped
    unfold dropLineEnd? at dropped
    split at dropped
    · cases dropped
      exact ⟨_, .returnFeed, rfl, nofun⟩
    · cases dropped
      exact ⟨_, .feed, rfl, nofun⟩
    · next rest' _ notPair =>
      cases dropped
      refine ⟨_, .return, rfl, fun _ feed => ?_⟩
      obtain ⟨tail, rfl⟩ := List.head?_eq_some_iff.mp feed
      exact notPair tail rfl
    · cases dropped
  · rintro ⟨ending, isEnding, rfl, joins⟩
    cases isEnding with
    | returnFeed | feed => rfl
    | «return» =>
        cases rest with
        | nil => rfl
        | cons c rest =>
            have other : c ≠ '\n' := by simpa using joins rfl
            simp only [List.cons_append, List.nil_append, dropLineEnd?]
            split <;> simp_all

theorem dropComment_append {comment ending : List Char} (isComment : Comment comment)
    (isEnding : LineEnd ending) (rest : List Char) :
    dropComment (comment ++ ending ++ rest) = ending ++ rest := by
  cases isComment with
  | none => cases isEnding <;> rfl
  | @some text inside =>
      have isInside : ∀ c ∈ text, (!isLineBreak c) = true := by simpa using inside
      simp only [List.cons_append, dropComment, List.append_assoc]
      rw [List.dropWhile_append_of_pos isInside]
      cases isEnding <;> rfl

theorem exists_comment (text : List Char) :
    ∃ comment, Comment comment ∧ text = comment ++ dropComment text := by
  unfold dropComment
  split
  · next rest =>
    refine ⟨';' :: rest.takeWhile (fun c => !isLineBreak c), .some ?_, ?_⟩
    · intro c member
      simpa using List.all_eq_true.mp List.all_takeWhile c member
    · rw [List.cons_append, List.takeWhile_append_dropWhile]
  · exact ⟨[], .none, rfl⟩

/-- A line is ended exactly by an optional comment and a line end. -/
theorem endLine?_eq_some_iff {state next : State} :
    state.endLine? = some next ↔
      ∃ comment ending, Comment comment ∧ LineEnd ending ∧ Joins ending next.rest ∧
        Advances state (comment ++ ending) next := by
  constructor
  · intro ended
    obtain ⟨rest, dropped, rfl⟩ := Option.map_eq_some_iff.mp ended
    obtain ⟨comment, isComment, split⟩ := exists_comment state.rest
    obtain ⟨ending, isEnding, same, joins⟩ := dropLineEnd?_eq_some_iff.mp dropped
    refine ⟨comment, ending, isComment, isEnding, joins, ?_, ?_, rfl⟩
    · rw [split, same, List.append_assoc]
    · rw [lineEnds_append_of_inside isComment.inside, isEnding.lineEnds_eq]
      rfl
  · rintro ⟨comment, ending, isComment, isEnding, joins, advances⟩
    have dropped : dropLineEnd? (dropComment state.rest) = some next.rest := by
      rw [advances.rest, dropComment_append isComment isEnding]
      exact dropLineEnd?_eq_some_iff.mpr ⟨ending, isEnding, rfl, joins⟩
    rw [State.endLine?, dropped, advances.next_eq, lineEnds_append_of_inside isComment.inside,
      isEnding.lineEnds_eq]
    rfl

/-! ## Blank lines and gaps -/

theorem skipBlankLines_of_endLine? {state next : State}
    (ended : state.skipSpace.endLine? = some next) :
    state.skipBlankLines = next.skipBlankLines := by
  rw [State.skipBlankLines]
  split
  · next other otherwise =>
    obtain rfl : other = next := Option.some.inj (otherwise.symm.trans ended)
    rfl
  · next none => rw [none] at ended; cases ended

theorem skipBlankLines_eq_self {state : State} (content : state.skipSpace.endLine? = none) :
    state.skipBlankLines = state := by
  rw [State.skipBlankLines]
  split
  · next some => rw [some] at content; cases content
  · rfl

/-- The blank lines that are skipped are a gap. -/
theorem skipBlankLines_advances (state : State) :
    ∃ gap, Gap gap ∧ Advances state gap state.skipBlankLines := by
  induction state using State.skipBlankLines.induct with
  | case1 state next ended ih =>
      obtain ⟨gap, isGap, rest⟩ := ih
      obtain ⟨spaces, blank, first⟩ := skipSpace_advances state
      obtain ⟨comment, ending, isComment, isEnding, joins, second⟩ :=
        endLine?_eq_some_iff.mp ended
      rw [rest.rest] at joins
      have solid : Joins spaces (comment ++ ending) := .of_inside fun c member =>
        not_isLineBreak_of_isSpace (blank c member)
      have meets : Joins (spaces ++ (comment ++ ending)) gap := by
        rw [← List.append_assoc]
        exact joins.of_append_right.append_left isEnding.ne_nil _
      refine ⟨spaces ++ (comment ++ ending ++ gap), ?_, ?_⟩
      · exact .spaces blank (.lineEnd isComment isEnding isGap)
      · rw [skipBlankLines_of_endLine? ended, ← List.append_assoc]
        exact (first.trans second solid).trans rest meets
  | case2 state content =>
      rw [skipBlankLines_eq_self content]
      exact ⟨[], .nil, .refl state⟩

theorem skipGap_advances (state : State) :
    ∃ gap, Gap gap ∧ Advances state gap state.skipGap := by
  obtain ⟨gap, isGap, first⟩ := skipBlankLines_advances state
  obtain ⟨spaces, blank, second⟩ := skipSpace_advances state.skipBlankLines
  have joins : Joins gap spaces := by
    apply Joins.of_head
    intro feed
    obtain ⟨rest, rfl⟩ := List.head?_eq_some_iff.mp feed
    exact absurd (blank '\n' List.mem_cons_self) (by decide)
  have isSpaces : Gap spaces := by
    simpa using Gap.spaces blank .nil
  exact ⟨gap ++ spaces, isGap.append isSpaces, first.trans second joins⟩

private theorem skipGap_cons_space {c : Char} (space : isSpace c = true) (rest : List Char)
    (line level : Int) :
    State.skipGap ⟨c :: rest, line, level⟩ = State.skipGap ⟨rest, line, level⟩ := by
  have same := skipSpace_cons space rest line level
  cases ended : (State.skipSpace ⟨rest, line, level⟩).endLine? with
  | some next =>
      rw [State.skipGap, State.skipGap, skipBlankLines_of_endLine? ended,
        skipBlankLines_of_endLine? (same ▸ ended)]
  | none =>
      rw [State.skipGap, State.skipGap, skipBlankLines_eq_self ended,
        skipBlankLines_eq_self (same ▸ ended), same]

private theorem skipGap_lineEnd {comment ending rest : List Char} (isComment : Comment comment)
    (isEnding : LineEnd ending) (joins : Joins ending rest) (line level : Int) :
    State.skipGap ⟨comment ++ ending ++ rest, line, level⟩ =
      State.skipGap ⟨rest, line + 1, level⟩ := by
  have solid : StartsWithout isSpace (comment ++ ending ++ rest) := by
    cases isComment <;> cases isEnding <;> rintro c ⟨⟩ <;> rfl
  have ended : (State.skipSpace ⟨comment ++ ending ++ rest, line, level⟩).endLine? =
      some ⟨rest, line + 1, level⟩ := by
    rw [skipSpace_eq_self solid]
    apply endLine?_eq_some_iff.mpr
    refine ⟨comment, ending, isComment, isEnding, joins, rfl, ?_, rfl⟩
    rw [lineEnds_append_of_inside isComment.inside, isEnding.lineEnds_eq]
    rfl
  rw [State.skipGap, State.skipGap, skipBlankLines_of_endLine? ended]

/-- Parting a line feed from its carriage return does not show behind the gap. -/
private theorem skipGap_return_feed {comment : List Char} (isComment : Comment comment)
    (rest : List Char) (line level : Int) :
    State.skipGap ⟨comment ++ ['\r'] ++ '\n' :: rest, line, level⟩ =
      State.skipGap ⟨'\n' :: rest, line, level⟩ := by
  have pair := @skipGap_lineEnd comment _ rest isComment .returnFeed nofun line level
  have feed := @skipGap_lineEnd [] _ rest .none .feed nofun line level
  rw [List.append_assoc] at pair ⊢
  exact pair.trans feed.symm

theorem StartsWithout.noSpace {text : List Char} (solid : StartsWithout opensGap text) :
    StartsWithout isSpace text := by
  intro c first
  have outside := solid c first
  simp only [opensGap, Bool.or_eq_false_iff] at outside
  exact outside.1.1

theorem endLine?_eq_none {state : State} (solid : StartsWithout opensGap state.rest) :
    state.endLine? = none := by
  cases ended : state.endLine? with
  | none => rfl
  | some next =>
      obtain ⟨comment, ending, isComment, isEnding, -, advances⟩ :=
        endLine?_eq_some_iff.mp ended
      rw [advances.rest] at solid
      cases isComment <;> cases isEnding <;> exact absurd (solid _ rfl) (by decide)

private theorem skipGap_eq_self {state : State} (solid : StartsWithout opensGap state.rest) :
    state.skipGap = state := by
  have skipped : state.skipSpace = state := skipSpace_eq_self (StartsWithout.noSpace solid)
  have content : state.skipSpace.endLine? = none := by
    rw [skipped]
    exact endLine?_eq_none solid
  rw [State.skipGap, skipBlankLines_eq_self content, skipped]

/-- A gap is skipped as a whole, however it is cut into line ends. -/
theorem skipGap_append {gap after : List Char} (isGap : Gap gap)
    (solid : StartsWithout opensGap after) (line level : Int) :
    State.skipGap ⟨gap ++ after, line, level⟩ = ⟨after, line + lineEnds gap, level⟩ := by
  induction isGap generalizing line with
  | nil => simpa using @skipGap_eq_self ⟨after, line, level⟩ solid
  | space space isGap ih =>
      rw [List.cons_append, skipGap_cons_space space, ih,
        lineEnds_cons_of_inside (not_isLineBreak_of_isSpace space)]
  | @lineEnd comment ending gap isComment isEnding isGap ih =>
      rw [List.append_assoc]
      by_cases joins : Joins ending (gap ++ after)
      · rw [skipGap_lineEnd isComment isEnding joins, ih]
        have count : lineEnds (comment ++ ending ++ gap) = lineEnds gap + 1 := by
          rw [List.append_assoc, lineEnds_append_of_inside isComment.inside,
            lineEnds_append joins.of_append_right, isEnding.lineEnds_eq, Nat.add_comm]
        rw [count]
        simp only [Int.natCast_add, Int.natCast_one]
        congr 1
        omega
      · -- a carriage return whose line feed the derivation counts as a line end of its own
        obtain ⟨last, followed⟩ := Classical.not_imp.mp joins
        obtain rfl : ending = ['\r'] := by cases isEnding <;> simp_all
        obtain ⟨rest, same⟩ := List.head?_eq_some_iff.mp (Classical.not_not.mp followed)
        cases gap with
        | nil => exact absurd (solid '\n' (by rw [← List.nil_append after, same]; rfl)) (by decide)
        | cons c gap =>
            obtain ⟨rfl, rfl⟩ := List.cons.inj same
            rw [List.cons_append, skipGap_return_feed isComment, ← List.cons_append, ih,
              List.append_assoc, lineEnds_append_of_inside isComment.inside]
            rfl

end IndentLisp.Reader
