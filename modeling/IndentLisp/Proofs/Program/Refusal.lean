import IndentLisp.Proofs.Program.Listing
import IndentLisp.Proofs.Reader.Stops

/-!
# Refused programs

The ways in which the listing of a program stops early. Each comes from a failure at a place behind
the start, so a diagnostic is never on a line above the first one.
-/

set_option autoImplicit false

namespace IndentLisp.Reader

/-! ## Refused listings -/

/-- A line on which a phrase is looked for: there is one, it is not indented too deep, and its block
still fits into the nesting. -/
structure OpensLine (nesting : Nat) (above : Option Nat) (state : State) (depth : Nat) : Prop where
  more : state.skipBlankLines.atEnd = false
  tabs : state.skipBlankLines.tabs? = some depth
  within : depth ≤ depthLimit above
  held : depth < nesting

/-- Where its phrase starts. -/
def phraseStart (state : State) (depth : Nat) : State :=
  { state.skipBlankLines.skipSpace with level := depth }

/-- The ways in which a listing stops early. -/
inductive Refuses (nesting : Nat) (above : Option Nat) (state : State) : ParseError → Prop where
  | spaces : state.skipBlankLines.atEnd = false → state.skipBlankLines.tabs? = none →
      Refuses nesting above state (.diagnosed ⟨.spacesInIndent, state.skipBlankLines.line⟩)
  | excess {depth : Nat} : state.skipBlankLines.atEnd = false →
      state.skipBlankLines.tabs? = some depth → depthLimit above < depth →
      Refuses nesting above state (.diagnosed ⟨excess above, state.skipBlankLines.line⟩)
  | tooDeep {depth : Nat} : state.skipBlankLines.atEnd = false →
      state.skipBlankLines.tabs? = some depth → depth ≤ depthLimit above → nesting ≤ depth →
      Refuses nesting above state (.diagnosed ⟨.tooDeep, state.skipBlankLines.line⟩)
  | phrase {depth : Nat} {failure : Failure} {stop : State} : OpensLine nesting above state depth →
      phrase (nesting - (depth + 1)) (phraseStart state depth) = .failed failure stop →
      Refuses nesting above state (failure.atState stop)
  | headless {depth : Nat} {next : State} : OpensLine nesting above state depth →
      phrase (nesting - (depth + 1)) (phraseStart state depth) = .absent next →
      Refuses nesting above state (.diagnosed ⟨.malformedLine, state.skipBlankLines.line⟩)
  | unfinished {depth : Nat} {value : Phrase} {stop : State} :
      OpensLine nesting above state depth →
      phrase (nesting - (depth + 1)) (phraseStart state depth) = .found value stop →
      stop.endLine? = none →
      Refuses nesting above state (.diagnosed ⟨.malformedLine, stop.line⟩)
  | below {depth : Nat} {value : Phrase} {stop below : State} {error : ParseError} :
      FirstLine nesting above state depth value stop below →
      listing nesting (some depth) below = .error error →
      Refuses nesting above state error

section

variable {nesting : Nat} {above : Option Nat} {state : State} {depth : Nat} {error : ParseError}

private theorem OpensLine.listing_eq (opens : OpensLine nesting above state depth) :
    listing nesting above state = listingFrom nesting depth state.skipBlankLines := by
  rw [Reader.listing_eq, if_neg (by simp [opens.more]), opens.tabs]
  exact if_neg (Nat.not_lt.mpr opens.within)

private theorem OpensLine.listingFrom_eq (opens : OpensLine nesting above state depth) :
    listingFrom nesting depth state.skipBlankLines =
      match phrase (nesting - (depth + 1)) (phraseStart state depth) with
      | .failed failure stop => .error (failure.atState stop)
      | .absent _ => .error (.diagnosed ⟨.malformedLine, state.skipBlankLines.line⟩)
      | .found value stop =>
        match stop.endLine? with
        | none => .error (.diagnosed ⟨.malformedLine, stop.line⟩)
        | some below => (listing nesting (some depth) below).map ((depth, value) :: ·) := by
  have held := opens.held
  have left : nesting - depth = nesting - (depth + 1) + 1 := by omega
  rw [listingFrom, left]
  rfl

private theorem OpensLine.refuses (opens : OpensLine nesting above state depth)
    (refused : listingFrom nesting depth state.skipBlankLines = .error error) :
    Refuses nesting above state error := by
  rw [opens.listingFrom_eq] at refused
  cases read : phrase (nesting - (depth + 1)) (phraseStart state depth) with
  | absent =>
      rw [read] at refused
      cases refused
      exact .headless opens read
  | failed failure stop =>
      rw [read] at refused
      cases refused
      exact .phrase opens read
  | found value stop =>
      rw [read] at refused
      dsimp only at refused
      cases ended : stop.endLine? with
      | none =>
          rw [ended] at refused
          cases refused
          exact .unfinished opens read ended
      | some below =>
          rw [ended] at refused
          dsimp only at refused
          cases following : listing nesting (some depth) below with
          | ok entries =>
              rw [following] at refused
              cases refused
          | error other =>
              rw [following] at refused
              cases refused
              exact .below ⟨opens.more, opens.tabs, opens.within, opens.held, read, ended⟩ following

theorem Refuses.listing_eq (refuses : Refuses nesting above state error) :
    listing nesting above state = .error error := by
  cases refuses with
  | spaces more tabs => rw [Reader.listing_eq, if_neg (by simp [more]), tabs]
  | excess more tabs deep =>
      rw [Reader.listing_eq, if_neg (by simp [more]), tabs]
      exact if_pos deep
  | tooDeep more tabs within deep =>
      rw [Reader.listing_eq, if_neg (by simp [more]), tabs]
      dsimp only
      rw [if_neg (Nat.not_lt.mpr within), listingFrom, Nat.sub_eq_zero_of_le deep]
  | phrase opens read | headless opens read => rw [opens.listing_eq, opens.listingFrom_eq, read]
  | unfinished opens read ended =>
      rw [opens.listing_eq, opens.listingFrom_eq, read]
      dsimp only
      rw [ended]
  | below first following =>
      rw [first.listing_eq, following]
      rfl

theorem listing_eq_error_iff :
    listing nesting above state = .error error ↔ Refuses nesting above state error := by
  constructor
  · intro refused
    by_cases done : state.skipBlankLines.atEnd = true
    · rw [listing_of_atEnd done] at refused
      cases refused
    · have more : state.skipBlankLines.atEnd = false := by simpa using done
      cases tabs : state.skipBlankLines.tabs? with
      | none =>
          rw [listing_eq, if_neg done, tabs] at refused
          cases refused
          exact .spaces more tabs
      | some depth =>
          rw [listing_eq, if_neg done, tabs] at refused
          by_cases deep : depthLimit above < depth
          · cases (if_pos deep).symm.trans refused
            exact .excess more tabs deep
          · have within := Nat.not_lt.mp deep
            have refused := (if_neg deep).symm.trans refused
            by_cases held : depth < nesting
            · have opens : OpensLine nesting above state depth := ⟨more, tabs, within, held⟩
              exact opens.refuses refused
            · have full := Nat.not_lt.mp held
              rw [listingFrom, Nat.sub_eq_zero_of_le full] at refused
              cases refused
              exact .tooDeep more tabs within full
  · exact Refuses.listing_eq

end

/-! ## Places of refusals -/

/-- The refusal comes from a failure at a place where the text leads. -/
def RefusedBehind (state : State) (error : ParseError) : Prop :=
  ∃ text stop failure, Passes state text stop ∧ error = Failure.atState stop failure ∧
    ∀ digits, failure = .numeralTooLong digits → EndsInLongNumeral digits text

private theorem RefusedBehind.refuse (state : State) (cause : Problem) :
    RefusedBehind state (.diagnosed ⟨cause, state.line⟩) :=
  ⟨[], state, .problem cause, .refl state, rfl, fun _ same => by cases same⟩

private theorem RefusedBehind.after {state middle : State} {text : List Char} {error : ParseError}
    (passes : Passes state text middle) (refused : RefusedBehind middle error) :
    RefusedBehind state error := by
  obtain ⟨more, stop, failure, further, same, long⟩ := refused
  exact ⟨text ++ more, stop, failure, passes.trans further, same,
    fun digits isLong => (long digits isLong).append text⟩

private theorem Passes.phraseStart (state : State) (depth : Nat) :
    ∃ text, Passes state text (phraseStart state depth) := by
  obtain ⟨gap, skipped⟩ := Passes.skipBlankLines state
  obtain ⟨spaces, further⟩ := Passes.skipSpace state.skipBlankLines
  have start : Passes state.skipBlankLines spaces (Reader.phraseStart state depth) :=
    ⟨further.rest, further.line, further.joins⟩
  exact ⟨gap ++ spaces, skipped.trans start⟩

private theorem Passes.phrase {nesting : Nat} {state stop : State} {depth : Nat} {value : Phrase}
    (read : Reader.phrase nesting (Reader.phraseStart state depth) = .found value stop) :
    ∃ text, Passes state text stop := by
  obtain ⟨text, start⟩ := Passes.phraseStart state depth
  have stops := phrase_stops nesting (Reader.phraseStart state depth)
  rw [read] at stops
  cases stops.reaches_of_found with
  | found passes _ => exact ⟨_, start.trans passes⟩

private theorem Passes.firstLine {nesting : Nat} {above : Option Nat} {state stop below : State}
    {depth : Nat} {value : Phrase} (first : FirstLine nesting above state depth value stop below) :
    ∃ text, Passes state text below := by
  obtain ⟨text, before⟩ := Passes.phrase first.read
  obtain ⟨ending, after⟩ := Passes.endLine? first.ended
  exact ⟨text ++ ending, before.trans after⟩

theorem listing_refusedBehind {nesting : Nat} {above : Option Nat} {state : State}
    {error : ParseError} (refused : listing nesting above state = .error error) :
    RefusedBehind state error := by
  induction long : state.rest.length using Nat.strongRecOn generalizing above state with
  | ind size ih =>
      obtain ⟨gap, skipped⟩ := Passes.skipBlankLines state
      cases listing_eq_error_iff.mp refused with
      | spaces | excess | tooDeep | headless => exact .after skipped (.refuse _ _)
      | @phrase depth failure stop _ read =>
          obtain ⟨text, start⟩ := Passes.phraseStart state depth
          have stops := phrase_stops (nesting - (depth + 1)) (phraseStart state depth)
          rw [read] at stops
          cases stops.reaches_of_failed with
          | failed passes _ long =>
              exact .after start ⟨_, stop, failure, passes, rfl, long⟩
      | unfinished _ read _ =>
          obtain ⟨text, passes⟩ := Passes.phrase read
          exact .after passes (.refuse _ _)
      | below first following =>
          obtain ⟨text, passes⟩ := Passes.firstLine first
          have shorter := first.length_lt
          exact .after passes (ih _ (by omega) following rfl)

theorem parse_refusedBehind {nesting : Nat} {source : String} {error : ParseError}
    (refused : parse nesting source = .error error) : RefusedBehind (.start source) error := by
  rcases parse_listing nesting source with ⟨_, _, parsed, -, -⟩ | ⟨other, failed, listed⟩
  · rw [refused] at parsed
    cases parsed
  · rw [refused] at failed
    cases failed
    exact listing_refusedBehind listed

/-- A diagnostic is on the first line or further down. -/
theorem one_le_line_of_parse {nesting : Nat} {source : String} {diagnostic : Diagnostic}
    (refused : parse nesting source = .error (.diagnosed diagnostic)) : 1 ≤ diagnostic.line := by
  obtain ⟨text, stop, failure, passes, same, -⟩ := parse_refusedBehind refused
  cases failure with
  | numeralTooLong => cases same
  | problem cause =>
      cases same
      exact passes.line_le

end IndentLisp.Reader
