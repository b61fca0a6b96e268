import IndentLisp.Proofs.Program.WellFormed
import IndentLisp.Proofs.Reader.Bounds
import Mathlib.Data.List.DropRight

/-!
# More text behind

A text that ends in a line feed can be followed by any other text. Skipping and the look at the tabs
do not notice the text behind, unless they come to the end of what stands before it.
-/

set_option autoImplicit false

namespace IndentLisp.Reader

open Grammar

/-- The state with more text behind the unread one. -/
def State.followedBy (state : State) (more : List Char) : State :=
  { state with rest := state.rest ++ more }

def State.lastLine (state : State) : Int := state.line + lineEnds state.rest

section

variable {state next : State} {text : List Char}

/-! ## Classes of characters -/

private theorem feed_mem (filled : text ≠ []) (ended : Ended text) : '\n' ∈ text := by
  have last := List.getLast?_eq_some_getLast filled
  rw [← ended _ last]
  exact List.getLast_mem filled

theorem dropWhile_ne_nil {p : Char → Bool} (stops : p '\n' = false) (filled : text ≠ [])
    (ended : Ended text) : text.dropWhile p ≠ [] := by
  intro empty
  have inside := List.dropWhile_eq_nil_iff.mp empty '\n' (feed_mem filled ended)
  exact absurd (stops.symm.trans inside) nofun

private theorem startsWithout_dropWhile_append {p : Char → Bool} (stops : p '\n' = false)
    (filled : text ≠ []) (ended : Ended text) (more : List Char) :
    StartsWithout p (text.dropWhile p ++ more) := by
  obtain ⟨c, rest, split⟩ := List.exists_cons_of_ne_nil (dropWhile_ne_nil stops filled ended)
  have outside := List.head?_dropWhile_not p text
  rw [split] at outside ⊢
  exact startsWithout_cons.mpr outside

private theorem dropWhile_append_of_ended {p : Char → Bool} (stops : p '\n' = false)
    (filled : text ≠ []) (ended : Ended text) (more : List Char) :
    (text ++ more).dropWhile p = text.dropWhile p ++ more := by
  have outside := startsWithout_dropWhile_append stops filled ended more
  have run : ∀ c ∈ text.takeWhile p, p c = true := List.all_eq_true.mp List.all_takeWhile
  have whole := dropWhile_append_of_without run outside
  rwa [← List.append_assoc, List.takeWhile_append_dropWhile] at whole

private theorem takeWhile_append_of_ended {p : Char → Bool} (stops : p '\n' = false)
    (filled : text ≠ []) (ended : Ended text) (more : List Char) :
    (text ++ more).takeWhile p = text.takeWhile p := by
  have outside := startsWithout_dropWhile_append stops filled ended more
  have run : ∀ c ∈ text.takeWhile p, p c = true := List.all_eq_true.mp List.all_takeWhile
  have whole := takeWhile_append_of_without run outside
  rwa [← List.append_assoc, List.takeWhile_append_dropWhile] at whole

/-! ## Skipping before more text -/

section

variable (filled : state.rest ≠ []) (ended : Ended state.rest) (more : List Char)

include filled ended

theorem skipSpace_followedBy :
    (state.followedBy more).skipSpace = state.skipSpace.followedBy more := by
  rw [State.skipSpace, State.followedBy, dropWhile_append_of_ended rfl filled ended]
  rfl

theorem tabs?_followedBy : (state.followedBy more).tabs? = state.tabs? := by
  have some := dropWhile_ne_nil (p := (· == '\t')) rfl filled ended
  rw [State.tabs?_eq, State.tabs?_eq, State.followedBy, dropWhile_append_of_ended rfl filled ended,
    takeWhile_append_of_ended rfl filled ended, List.head?_append_of_ne_nil _ some]

end

theorem ended_of_cons {c : Char} (ended : Ended (c :: text)) (other : c ≠ '\n') :
    text ≠ [] ∧ Ended text := by
  have filled : text ≠ [] := by
    rintro rfl
    exact other (ended c rfl)
  refine ⟨filled, fun d last => ended d ?_⟩
  rwa [List.getLast?_cons_of_ne_nil filled]

private theorem dropComment_append_of_ended (filled : text ≠ []) (ended : Ended text)
    (more : List Char) :
    dropComment (text ++ more) = dropComment text ++ more ∧ dropComment text ≠ [] ∧
      Ended (dropComment text) := by
  obtain ⟨c, rest, rfl⟩ := List.exists_cons_of_ne_nil filled
  by_cases isComment : c = ';'
  · subst isComment
    obtain ⟨filledRest, endedRest⟩ := ended_of_cons ended (by decide)
    have suffix : rest.dropWhile (fun c => !isLineBreak c) <:+ rest := List.dropWhile_suffix _
    have some := dropWhile_ne_nil (p := fun c => !isLineBreak c) rfl filledRest endedRest
    refine ⟨dropWhile_append_of_ended rfl filledRest endedRest more, some, ?_⟩
    obtain ⟨start, split⟩ := suffix
    intro d last
    have inside : (rest.dropWhile fun c => !isLineBreak c).getLast? = .some d := last
    apply endedRest d
    rw [← split, List.getLast?_append, inside]
    rfl
  · have same (tail : List Char) : dropComment (c :: tail) = c :: tail := by
      rw [dropComment]
      intro other isOther
      exact isComment (List.cons.inj isOther).1
    rw [List.cons_append, same, same]
    exact ⟨rfl, filled, ended⟩

private theorem dropLineEnd?_append_of_ended (filled : text ≠ []) (ended : Ended text)
    (more : List Char) :
    dropLineEnd? (text ++ more) = (dropLineEnd? text).map (· ++ more) := by
  obtain ⟨c, rest, rfl⟩ := List.exists_cons_of_ne_nil filled
  by_cases isReturn : c = '\r'
  · subst isReturn
    obtain ⟨some, -⟩ := ended_of_cons ended (by decide)
    obtain ⟨d, rest, rfl⟩ := List.exists_cons_of_ne_nil some
    by_cases isFeed : d = '\n'
    · subst isFeed
      rfl
    · simp [dropLineEnd?, isFeed]
  · by_cases isFeed : c = '\n'
    · subst isFeed
      rfl
    · simp [dropLineEnd?, isReturn, isFeed]

theorem endLine?_followedBy (filled : state.rest ≠ []) (ended : Ended state.rest)
    (more : List Char) :
    (state.followedBy more).endLine? = state.endLine?.map (State.followedBy · more) := by
  obtain ⟨dropped, some, endedRest⟩ := dropComment_append_of_ended filled ended more
  rw [State.endLine?, State.endLine?, State.followedBy, dropped,
    dropLineEnd?_append_of_ended some endedRest]
  cases dropLineEnd? (dropComment state.rest) <;> rfl

theorem skipSpace_ne_nil (filled : state.rest ≠ []) (ended : Ended state.rest) :
    state.skipSpace.rest ≠ [] :=
  dropWhile_ne_nil rfl filled ended

/-- Skipping stops before the end of the text, or else it goes on in the text behind. -/
theorem skipBlankLines_followedBy (ended : Ended state.rest) (more : List Char) :
    (state.skipBlankLines.rest = [] ∧ (state.followedBy more).skipBlankLines =
        State.skipBlankLines ⟨more, state.skipBlankLines.line, state.level⟩) ∨
      (state.skipBlankLines.rest ≠ [] ∧
        (state.followedBy more).skipBlankLines = state.skipBlankLines.followedBy more) := by
  induction state using State.skipBlankLines.induct with
  | case1 state next last ih =>
      have filled : state.rest ≠ [] := by
        intro empty
        rw [skipSpace_of_nil empty, State.endLine?, empty] at last
        cases last
      have endedSpace := ended_skipSpace ended
      have last' : (state.followedBy more).skipSpace.endLine? = some (next.followedBy more) := by
        rw [skipSpace_followedBy filled ended,
          endLine?_followedBy (skipSpace_ne_nil filled ended) endedSpace, last]
        rfl
      obtain ⟨_, _, -, -, -, ending⟩ := endLine?_eq_some_iff.mp last
      rw [skipBlankLines_of_endLine? last, skipBlankLines_of_endLine? last']
      have level : next.level = state.level := ending.level
      rw [← level]
      exact ih (ended_endLine? endedSpace last)
  | case2 state content =>
      rw [skipBlankLines_eq_self content]
      by_cases empty : state.rest = []
      · refine .inl ⟨empty, ?_⟩
        rw [State.followedBy, empty]
        rfl
      · have content' : (state.followedBy more).skipSpace.endLine? = none := by
          rw [skipSpace_followedBy empty ended,
            endLine?_followedBy (skipSpace_ne_nil empty ended) (ended_skipSpace ended), content]
          rfl
        exact .inr ⟨empty, skipBlankLines_eq_self content'⟩

/-! ## The line on which a text ends -/

theorem lastLine_skipSpace (state : State) : state.skipSpace.lastLine = state.lastLine := by
  obtain ⟨spaces, blank, advances⟩ := skipSpace_advances state
  have inside : ∀ c ∈ spaces, isLineBreak c = false := fun c member =>
    not_isLineBreak_of_isSpace (blank c member)
  rw [State.lastLine, State.lastLine, advances.rest, lineEnds_append_of_inside inside]
  rfl

theorem lastLine_of_advances {text : List Char} (advances : Advances state text next)
    (joins : Joins text next.rest) : next.lastLine = state.lastLine := by
  rw [State.lastLine, State.lastLine, advances.rest, lineEnds_append joins, advances.line,
    Int.natCast_add, Int.add_assoc]

theorem lastLine_endLine? (ended : state.endLine? = some next) :
    next.lastLine = state.lastLine := by
  obtain ⟨comment, ending, isComment, isEnding, joins, advances⟩ := endLine?_eq_some_iff.mp ended
  exact lastLine_of_advances advances (joins.append_left isEnding.ne_nil comment)

theorem lastLine_skipBlankLines (state : State) :
    state.skipBlankLines.lastLine = state.lastLine := by
  induction state using State.skipBlankLines.induct with
  | case1 state next ended ih =>
      rw [skipBlankLines_of_endLine? ended, ih, lastLine_endLine? ended, lastLine_skipSpace]
  | case2 state content => rw [skipBlankLines_eq_self content]

end

end IndentLisp.Reader
