import IndentLisp.Proofs.Program.Refusal
import IndentLisp.Proofs.Reader.Locality
import Mathlib.Control.Monad.Basic

/-!
# What a diagnostic depends on

A diagnostic is found in the text up to the end of its line. Other texts that begin with the same
lines are refused with the same diagnostic.
-/

set_option autoImplicit false

namespace IndentLisp

open Grammar Reader

namespace Reader

/-! ## Listings -/

private theorem line_le_of_listing {nesting : Nat} {above : Option Nat} {state : State}
    {diagnostic : Diagnostic}
    (refused : listing nesting above state = .error (.diagnosed diagnostic)) :
    state.line ≤ diagnostic.line := by
  obtain ⟨text, stop, failure, passes, same, -⟩ := listing_refusedBehind refused
  cases failure with
  | numeralTooLong => cases same
  | problem cause =>
      cases same
      exact passes.line_le

section

variable {nesting : Nat} {above : Option Nat} {state : State} {line : Int} {depth : Nat}
  (skipped : Before line state.skipBlankLines)
  (same : ∀ more, (state.followedBy more).skipBlankLines = state.skipBlankLines.followedBy more)

include skipped same

private theorem atEnd_followedBy (more : List Char) :
    (state.followedBy more).skipBlankLines.atEnd = false := by
  rw [same, State.atEnd, State.followedBy, List.isEmpty_eq_false_iff]
  exact List.append_ne_nil_of_left_ne_nil skipped.filled more

private theorem tabs?_skipBlankLines_followedBy (more : List Char) :
    (state.followedBy more).skipBlankLines.tabs? = state.skipBlankLines.tabs? := by
  rw [same, tabs?_followedBy skipped.filled skipped.ended]

private theorem OpensLine.followedBy {more : List Char}
    (opens : OpensLine nesting above (state.followedBy more) depth) (other : List Char) :
    OpensLine nesting above (state.followedBy other) depth where
  more := atEnd_followedBy skipped same other
  tabs := by
    rw [tabs?_skipBlankLines_followedBy skipped same,
      ← tabs?_skipBlankLines_followedBy skipped same more]
    exact opens.tabs
  within := opens.within
  held := opens.held

private theorem phrase_line_local (nesting depth : Nat) :
    Local line (fun state => phrase nesting (phraseStart state depth)) state := by
  have start := skipped.skipSpace
  have inner : Local line (phrase nesting) (phraseStart state depth) :=
    phrase_local nesting ⟨start.filled, start.ended, start.last⟩
  refine inner.congr fun more => ?_
  rw [phraseStart, same, skipSpace_followedBy skipped.filled skipped.ended]
  rfl

end

/-- What is refused on a line that is read locally is refused whatever follows, if that holds for
the lines below it. -/
private theorem Refuses.followedBy {nesting : Nat} {above : Option Nat} {state : State} {line : Int}
    {more : List Char} {diagnostic : Diagnostic} (skipped : Before line state.skipBlankLines)
    (same : ∀ more, (state.followedBy more).skipBlankLines = state.skipBlankLines.followedBy more)
    (refuses : Refuses nesting above (state.followedBy more) (.diagnosed diagnostic))
    (early : diagnostic.line < line) (other : List Char)
    (lines : ∀ {depth : Nat} {value : Phrase} {stop below : State}, Before line stop →
      FirstLine nesting above (state.followedBy more) depth value (stop.followedBy more)
        (below.followedBy more) → stop.endLine? = some below →
      listing nesting (some depth) (below.followedBy more) = .error (.diagnosed diagnostic) →
      listing nesting (some depth) (below.followedBy other) = .error (.diagnosed diagnostic)) :
    Refuses nesting above (state.followedBy other) (.diagnosed diagnostic) := by
  have here : (state.followedBy more).skipBlankLines.line =
      (state.followedBy other).skipBlankLines.line := by
    rw [same, same]
    rfl
  have sameTabs : (state.followedBy more).skipBlankLines.tabs? =
      (state.followedBy other).skipBlankLines.tabs? := by
    rw [tabs?_skipBlankLines_followedBy skipped same, tabs?_skipBlankLines_followedBy skipped same]
  have again := atEnd_followedBy skipped same other
  generalize refused : ParseError.diagnosed diagnostic = error at refuses
  cases refuses with
  | spaces _ tabs =>
      rw [here]
      exact .spaces again (sameTabs ▸ tabs)
  | excess _ tabs deep =>
      rw [here]
      exact .excess again (sameTabs ▸ tabs) deep
  | tooDeep _ tabs within deep =>
      rw [here]
      exact .tooDeep again (sameTabs ▸ tabs) within deep
  | @phrase depth failure stop opens read =>
      cases failure with
      | numeralTooLong => cases refused
      | problem cause =>
          cases refused
          obtain ⟨last, rfl, reads⟩ := (phrase_line_local skipped same _ depth).of_failed read early
          have refuses := Refuses.phrase (opens.followedBy skipped same other) (reads other)
          exact refuses
  | @headless depth _ opens read =>
      obtain ⟨last, reads⟩ := (phrase_line_local skipped same _ depth).of_absent read
      rw [here]
      exact .headless (opens.followedBy skipped same other) (reads other)
  | @unfinished depth _ _ opens read ended =>
      cases refused
      obtain ⟨next, before, rfl, reads⟩ :=
        (phrase_line_local skipped same _ depth).of_found read early
      rw [endLine?_followedBy before.filled before.ended, Option.map_eq_none_iff] at ended
      have unfinished : (next.followedBy other).endLine? = none := by
        rw [endLine?_followedBy before.filled before.ended, ended]
        rfl
      have refuses :=
        Refuses.unfinished (opens.followedBy skipped same other) (reads other) unfinished
      exact refuses
  | @below depth value stop below _ first following =>
      subst refused
      have above : stop.line < line := by
        obtain ⟨_, passes⟩ := Passes.endLine? first.ended
        have lower := passes.line_le
        have lowest := line_le_of_listing following
        omega
      obtain ⟨next, before, rfl, reads⟩ :=
        (phrase_line_local skipped same _ depth).of_found first.read above
      have ended := first.ended
      rw [endLine?_followedBy before.filled before.ended] at ended
      obtain ⟨start, last, rfl⟩ := Option.map_eq_some_iff.mp ended
      have opensLine : OpensLine nesting _ (state.followedBy more) depth :=
        ⟨first.more, first.tabs, first.within, first.held⟩
      have opens := OpensLine.followedBy skipped same opensLine other
      refine .below ⟨opens.more, opens.tabs, opens.within, opens.held, reads other, ?_⟩
        (lines before first last following)
      rw [endLine?_followedBy before.filled before.ended, last]
      rfl

/-- A listing that is refused above the line is refused in the same way whatever follows. -/
private theorem listing_error_followedBy {nesting : Nat} {above : Option Nat} {state : State}
    {line : Int} {more : List Char} {diagnostic : Diagnostic} (ended : Ended state.rest)
    (last : state.lastLine = line)
    (refused : listing nesting above (state.followedBy more) = .error (.diagnosed diagnostic))
    (early : diagnostic.line < line) (other : List Char) :
    listing nesting above (state.followedBy other) = .error (.diagnosed diagnostic) := by
  induction long : state.rest.length using Nat.strongRecOn generalizing above state with
  | ind size ih =>
      by_cases empty : state.rest = []
      · have lower := line_le_of_listing refused
        have here : (state.followedBy more).line = line := by
          rw [← last, State.lastLine, empty]
          exact (Int.add_zero _).symm
        omega
      · rcases Before.skipBlankLines ⟨empty, ended, last⟩ with ⟨skipped, same⟩ | later
        · refine (Refuses.followedBy skipped same (listing_eq_error_iff.mp refused) early other
            ?_).listing_eq
          intro depth value stop below before first ended following
          have shorter := first.length_lt
          rw [State.followedBy, State.followedBy, List.length_append, List.length_append] at shorter
          exact ih _ (by omega) (ended_endLine? before.ended ended)
            ((lastLine_endLine? ended).trans before.last) following rfl
        · rw [← listing_skipBlankLines] at refused
          have lower := line_le_of_listing refused
          have here := later more
          omega

end Reader

/-! ## The first lines of a text -/

/-- The first lines of a text, with the line feeds that end them. -/
def takeLines : Nat → List Char → List Char
  | 0, _ => []
  | _ + 1, [] => []
  | count + 1, c :: rest => c :: takeLines (if c = '\n' then count else count + 1) rest

private theorem takeLines_prefix (count : Nat) (text : List Char) :
    takeLines count text <+: text := by
  fun_induction takeLines count text with
  | case1 text => exact List.nil_prefix
  | case2 => exact List.prefix_rfl
  | case3 count c rest ih => exact List.cons_prefix_cons.mpr ⟨rfl, ih⟩

private theorem ended_cons {c : Char} {text : List Char} (ended : Ended text)
    (last : text = [] → c = '\n') : Ended (c :: text) := by
  intro d final
  by_cases empty : text = []
  · subst empty
    cases final
    exact last rfl
  · rw [List.getLast?_cons_of_ne_nil empty] at final
    exact ended d final

/-- As many lines as a text has can be taken from it. -/
private theorem takeLines_spec {count : Nat} {text : List Char} (enough : count ≤ text.count '\n') :
    (takeLines count text).count '\n' = count ∧ Ended (takeLines count text) := by
  fun_induction takeLines count text with
  | case1 text => exact ⟨rfl, fun _ last => by cases last⟩
  | case2 => cases enough
  | case3 count c rest ih =>
      by_cases isFeed : c = '\n'
      · subst isFeed
        rw [List.count_cons_self] at enough
        obtain ⟨counts, ended⟩ := ih (Nat.le_of_succ_le_succ enough)
        exact ⟨by rw [List.count_cons_self, counts, if_pos rfl], ended_cons ended fun _ => rfl⟩
      · rw [List.count_cons_of_ne isFeed] at enough
        rw [if_neg isFeed] at ih ⊢
        obtain ⟨counts, ended⟩ := ih enough
        refine ⟨by rw [List.count_cons_of_ne isFeed, counts], ended_cons ended fun empty => ?_⟩
        rw [empty] at counts
        cases counts

/-! ## Diagnostics -/

private theorem not_mem_terminated {c : Char} {text : List Char} (absent : c ∉ text)
    (other : c ≠ '\n') :
    c ∉ terminated text := by
  unfold terminated
  split
  · exact absent
  · intro member
    rcases List.mem_append.mp member with inside | last
    · exact absent inside
    · exact other (List.mem_singleton.mp last)

/-- A text that begins with the same lines, down to that of the diagnostic, is refused with the same
diagnostic. -/
theorem parse_eq_of_takeLines {nesting : Nat} {source source' : String}
    {diagnostic : Diagnostic} (noReturn : '\r' ∉ source.toList)
    (refused : parse nesting source = .error (.diagnosed diagnostic))
    (inside : diagnostic.line ≤ (terminated source.toList).count '\n')
    (same : takeLines diagnostic.line.toNat (terminated source'.toList) =
      takeLines diagnostic.line.toNat (terminated source.toList)) :
    parse nesting source' = .error (.diagnosed diagnostic) := by
  have positive := one_le_line_of_parse refused
  obtain ⟨counts, ended⟩ := @takeLines_spec diagnostic.line.toNat (terminated source.toList)
    (by omega)
  obtain ⟨more, split⟩ := takeLines_prefix diagnostic.line.toNat (terminated source.toList)
  obtain ⟨other, split'⟩ := takeLines_prefix diagnostic.line.toNat (terminated source'.toList)
  rw [same] at split'
  generalize takeLines diagnostic.line.toNat (terminated source.toList) = lines
    at split split' counts ended
  have start : State.start source = State.followedBy ⟨lines, 1, -1⟩ more := by
    rw [State.start, ← split]
    rfl
  have start' : State.start source' = State.followedBy ⟨lines, 1, -1⟩ other := by
    rw [State.start, ← split']
    rfl
  have noReturnLines : '\r' ∉ lines := by
    intro member
    apply not_mem_terminated noReturn (by decide)
    rw [← split]
    exact List.mem_append_left more member
  have last : State.lastLine ⟨lines, 1, -1⟩ = diagnostic.line + 1 := by
    rw [State.lastLine, lineEnds_eq_count noReturnLines, counts]
    dsimp only
    omega
  rcases parse_listing nesting source with ⟨_, _, parsed, -, -⟩ | ⟨error, failed, listed⟩
  · rw [refused] at parsed
    cases parsed
  · cases refused.symm.trans failed
    rw [start] at listed
    apply parse_of_listing_error
    rw [start']
    exact listing_error_followedBy ended last listed (by omega) other

theorem parse_eq_of_takeLines_closer :
    parse 1 "f\n) x\ng" = .error (.diagnosed ⟨.malformedLine, 2⟩) ∧
      parse 1 "f\n) x\n\t\t'" = .error (.diagnosed ⟨.malformedLine, 2⟩) := by
  have refused : parse 1 "f\n) x\ng" = .error (.diagnosed ⟨.malformedLine, 2⟩) := by decide +kernel
  exact ⟨refused, parse_eq_of_takeLines (by decide) refused (by decide) (by decide)⟩

end IndentLisp
