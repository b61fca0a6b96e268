import IndentLisp.Proofs.Messages
import IndentLisp.Proofs.Reader.Brackets
import IndentLisp.Proofs.Reader.Causes
import IndentLisp.Proofs.Reader.Correspondence
import IndentLisp.Proofs.Reader.Locality

/-!
# Refusals because of brackets

Where a program is refused because of a bracket, the text that has been read shows which bracket is
open and how many items stand in it, and the unread text goes on with a closing bracket that does
not belong there, or it is used up.
-/

set_option autoImplicit false

namespace IndentLisp

open Grammar Lexer Reader

/-- What the unread text shows where a program is refused for a problem. -/
def Problem.showsInProgram : Problem → List Char → Prop
  | malformedLine, rest => StartsWith isCloser rest
  | spacesInIndent, _ | excessiveIndent, _ | indentedStart, _ | tooDeep, _ => True
  | problem, rest => problem.shows rest

private theorem Problem.showsInProgram_of_shows {problem : Problem} {rest : List Char}
    (shows : problem.shows rest) : problem.showsInProgram rest := by
  cases problem with
  | spacesInIndent | excessiveIndent | indentedStart | tooDeep => exact trivial
  | malformedLine => exact shows.elim
  | _ => exact shows

namespace Reader

/-- The open brackets and the unread text give the evidence. -/
def bySource (cause : Problem) (opened : List OpenBracket) (rest : List Char) : Prop :=
  cause.opens opened ∧ cause.showsInProgram rest

private theorem Reply.Traced.explained {α : Type} {reply : Reply α}
    {opened closed : List OpenBracket}
    {state : State} (traced : reply.Traced byBrackets opened closed state)
    (explained : reply.Explained) : reply.Traced bySource opened closed state := by
  cases traced with
  | found leads => exact .found leads
  | absent => exact .absent
  | failed text split opens =>
      cases explained with
      | failed shows =>
          exact .failed text split fun cause isCause =>
            ⟨opens cause isCause, Problem.showsInProgram_of_shows (shows cause isCause)⟩

/-! ## Lines -/

/-- The text goes on with a line that has content. -/
structure AtContent (state : State) : Prop where
  ended : Ended state.rest
  more : state.rest ≠ []
  content : state.skipSpace.endLine? = none

private theorem AtContent.of_skipBlankLines {state next : State} (ended : Ended state.rest)
    (more : ¬ state.skipBlankLines.atEnd = true) (same : next.rest = state.skipBlankLines.rest) :
    AtContent next where
  ended := same ▸ ended_skipBlankLines ended
  more := by
    rw [same]
    exact fun done => more (List.isEmpty_iff.mpr done)
  content := by
    have content := endLine?_skipBlankLines state
    simpa only [State.endLine?, State.skipSpace, Option.map_eq_none_iff, same] using content

/-- Where no item starts on a line with content, there is a closing bracket. -/
private theorem AtContent.closer_of_absent {nesting : Nat} {state : State} (here : AtContent state)
    (absent : readItem nesting state.skipSpace = .absent state.skipSpace) :
    StartsWith isCloser state.skipSpace.rest := by
  have start : state.skipGap = state.skipSpace := by
    rw [State.skipGap, skipBlankLines_eq_self here.content]
  rw [← start] at absent
  have closer := Reader.closer_of_absent here.ended absent
  rw [start] at closer
  exact closer.resolve_left (skipSpace_ne_nil here.more here.ended)

private theorem readItem_of_phrase_absent {nesting : Nat} {state next : State}
    (absent : phrase nesting state = .absent next) : readItem nesting state = .absent state := by
  rw [phrase_eq] at absent
  cases head : readHead (readItem nesting) state with
  | absent =>
      obtain rfl := keepsPlace_readHead nesting head
      exact readHead_eq_absent_iff.mp head
  | failed => simp [head, Reply.bind] at absent
  | found node next =>
      rw [head, Reply.bind, Reply.map_eq_absent_iff] at absent
      exact absurd absent (arguments_reaches nesting next).ne_absent

/-- A phrase does not take up the line end at the end of the text. -/
private theorem rest_ne_nil_of_phrase {nesting : Nat} {state next : State} {value : Phrase}
    (ended : Ended state.rest) (found : phrase nesting state = .found value next) :
    next.rest ≠ [] := by
  intro done
  obtain ⟨text, advances, written, -⟩ := written_of_readPhrase ended found
  obtain ⟨c, rest, split, -⟩ := WrittenPhrase.starts written
  have whole : state.rest = text := by rw [advances.rest, done, List.append_nil]
  have last := List.getLast?_eq_some_getLast (split ▸ List.cons_ne_nil c rest : text ≠ [])
  have inside := WrittenPhrase.last_inside written _ last
  have feed := ended _ (by rw [whole]; exact last)
  rw [feed] at inside
  cases inside

def BlocksTraced (nesting : Nat) : Prop :=
  ∀ {state : State}, Ended state.rest → (block nesting state).Traced bySource [] [] state

private theorem line_traced {nesting : Nat} {state : State} (blocks : BlocksTraced nesting)
    (here : AtContent state) : (line nesting state).Traced bySource [] [] state := by
  have endedStart := ended_skipSpace here.ended
  have start :=
    (phrase_traced nesting state.skipSpace).explained (phrase_explained nesting endedStart)
  rw [line_eq]
  refine .after (.skipSpace [] state) ?_
  cases result : phrase nesting state.skipSpace with
  | absent => exact .refuse ⟨rfl, here.closer_of_absent (readItem_of_phrase_absent result)⟩
  | failed failure stop =>
      rw [result] at start
      exact start.failure
  | found value stop =>
      rw [result] at start
      cases start with
      | found leads =>
          refine .after leads ?_
          have endedStop := leads.ended endedStart
          dsimp only
          cases last : stop.endLine? with
          | some below =>
              exact .after (.endLine? last) (blocks (ended_endLine? endedStop last)).map
          | none =>
              -- The phrase ends behind white space, so this is the content of the line.
              obtain ⟨_, -, absent⟩ := exists_end_of_phrase result
              have skips := Correspondence.skipSpace_of_phrase result
              have inside : AtContent stop :=
                ⟨endedStop, rest_ne_nil_of_phrase endedStart result, by rw [skips, last]⟩
              have closer := inside.closer_of_absent (by rw [skips]; exact absent)
              rw [skips] at closer
              exact .refuse ⟨rfl, closer⟩

/-! ## Blocks -/

/-- The checks of the indentation read nothing. -/
private theorem checked_traced {state next : State} {passes : Nat → Prop} [DecidablePred passes]
    (same : next.rest = state.rest) : (state.checked next passes).Traced bySource [] [] state := by
  rw [State.checked]
  cases state.tabs? with
  | none => exact .refuse ⟨trivial, trivial⟩
  | some count =>
      dsimp only
      split
      · exact .found (.of_rest same)
      · exact .absent

private theorem indent_traced (state : State) : state.indent.Traced bySource [] [] state := by
  rw [State.indent_eq]
  exact checked_traced rfl

private theorem dedent_traced (state : State) : state.dedent.Traced bySource [] [] state := by
  rw [State.dedent_eq]
  exact checked_traced rfl

private theorem nodent_traced (state : State) : state.nodent.Traced bySource [] [] state := by
  rw [State.nodent_eq]
  exact checked_traced rfl

private theorem lines_traced {nesting : Nat} {state : State} (blocks : BlocksTraced nesting)
    (here : AtContent state) : (lines nesting state).Traced bySource [] [] state := by
  induction long : state.rest.length using Nat.strongRecOn generalizing state with
  | ind length ih =>
      have first := line_traced blocks here
      rw [lines_eq]
      refine first.bind fun node stop found => ?_
      rw [found] at first
      have less := consumes_line nesting found
      have skipped := length_skipBlankLines_le stop
      have dedents := dedent_traced stop.skipBlankLines
      have nodents := nodent_traced stop.skipBlankLines
      refine .after (.skipBlankLines [] stop) ?_
      by_cases done : stop.skipBlankLines.atEnd = true
      · rw [if_pos done]
        exact .found (.of_rest rfl)
      · rw [if_neg done]
        cases closed : stop.skipBlankLines.dedent with
        | found _ outside => exact .found (.of_rest (State.rest_of_dedent closed))
        | failed failure last =>
            rw [closed] at dedents
            exact dedents.failure
        | absent =>
            obtain rfl := State.keepsPlace_dedent closed
            cases stays : stop.skipBlankLines.nodent with
            | absent => exact .refuse ⟨trivial, trivial⟩
            | failed failure last =>
                rw [stays] at nodents
                exact nodents.failure
            | found _ next =>
                have kept := State.rest_of_nodent stays
                cases first with
                | found leads =>
                    have content := AtContent.of_skipBlankLines (leads.ended here.ended) done kept
                    have others := ih _ (by rw [kept]; omega) content rfl
                    exact .after (.of_rest kept) others.map

private theorem block_traced_of_linesWithin {nesting : Nat}
    (within : ∀ {state : State}, AtContent state →
      (linesWithin nesting state).Traced bySource [] [] state) : BlocksTraced nesting := by
  intro state ended
  have indents := indent_traced state.skipBlankLines
  rw [block_eq]
  refine .after (.skipBlankLines [] state) ?_
  by_cases done : state.skipBlankLines.atEnd = true
  · rw [if_pos done]
    exact .found (.of_rest rfl)
  · rw [if_neg done]
    cases opened : state.skipBlankLines.indent with
    | absent => exact .found (.of_rest rfl)
    | failed failure stop =>
        rw [opened] at indents
        exact indents.failure
    | found _ inside =>
        have kept := State.rest_of_indent opened
        have content := AtContent.of_skipBlankLines ended done kept
        exact .after (.of_rest kept) (within content).map

private theorem block_traced (nesting : Nat) : BlocksTraced nesting := by
  induction nesting with
  | zero => exact block_traced_of_linesWithin fun _ => .refuse ⟨trivial, trivial⟩
  | succ nesting ih => exact block_traced_of_linesWithin (lines_traced ih)

private theorem program_traced (nesting : Nat) (source : String) :
    (program nesting (.start source)).Traced bySource [] [] (.start source) := by
  refine (block_traced nesting (ended_start source)).bind fun body stop _ => ?_
  split
  · exact .found (.of_rest rfl)
  · exact .refuse ⟨trivial, trivial⟩

/-- A program that is read closes all its brackets. -/
theorem openBrackets_of_program {nesting : Nat} {source : String} {body : Body} {stop : State}
    (found : program nesting (.start source) = .found body stop) :
    openBrackets (terminated source.toList) = [] := by
  have traced := program_traced nesting source
  rw [found] at traced
  cases traced with
  | found leads =>
      obtain ⟨text, split, closed⟩ := leads.brackets
      have done : stop.rest = [] := by
        obtain ⟨_, last, -, finished⟩ := Reply.bind_eq_found_iff.mp found
        split at finished
        · next atEnd =>
          cases finished
          exact List.isEmpty_iff.mp atEnd
        · cases finished
      rw [done, List.append_nil] at split
      rw [← split] at closed
      exact closed

/-- Where a program is refused for a problem, the brackets that the read text leaves open and the
unread text give the evidence for it. -/
private theorem evidence_of_refused {nesting : Nat} {source : String} {cause : Problem}
    {stop : State} (refused : program nesting (.start source) = .failed (.problem cause) stop) :
    ∃ read, terminated source.toList = read ++ stop.rest ∧ cause.opens (openBrackets read) ∧
      cause.showsInProgram stop.rest := by
  have traced := program_traced nesting source
  rw [refused] at traced
  cases traced with
  | failed text split evident =>
      obtain ⟨opens, shows⟩ := evident cause rfl
      exact ⟨text, split, opens, shows⟩

/-- Where there is nothing but a closing bracket, no gap and no item starts. -/
private theorem readItem_of_closer {state : State}
    (closes : state.rest = [] ∨ StartsWith isCloser state.rest) :
    StartsWithout opensGap state.rest ∧ ∀ nesting, readItem nesting state = .absent state := by
  have without {class_ : Char → Bool} (apart : ∀ c, isCloser c = true → class_ c = false) :
      StartsWithout class_ state.rest := by
    rcases closes with done | closer
    · rw [done]
      exact fun _ first => by cases first
    · exact closer.without apart
  have either {c : Char} (closer : isCloser c = true) : c = ')' ∨ c = ']' := by
    simpa [isCloser] using closer
  constructor
  · refine without fun c closer => ?_
    rcases either closer with rfl | rfl <;> rfl
  · intro nesting
    refine readItem_eq_absent_iff.mpr ⟨rfl, without fun c closer => ?_⟩
    rcases either closer with rfl | rfl <;> rfl

end Reader

/-- The problems that brackets have. -/
def Problem.concernsBrackets : Problem → Bool
  | arrayItems _ | noHead | arguments _ | malformedLine => true
  | _ => false

private theorem Problem.closer_of_showsInProgram {problem : Problem} {rest : List Char}
    (brackets : problem.concernsBrackets = true) (shows : problem.showsInProgram rest) :
    rest = [] ∨ StartsWith isCloser rest := by
  have one {closer : Char} (closes : isCloser closer = true)
      (starts : StartsWith (· == closer) rest) : StartsWith isCloser rest := by
    obtain ⟨c, after, split, same⟩ := starts
    exact ⟨c, after, split, eq_of_beq same ▸ closes⟩
  cases problem with
  | malformedLine => exact .inr shows
  | noHead => exact shows
  | arrayItems => exact Or.imp_right (one rfl) shows
  | arguments => exact Or.imp_right (one rfl) shows
  | _ => cases brackets

/-- A message about brackets or about a string without an end names the cause. The unread text goes
on with a closing bracket that does not belong there, or it is used up. In the text that has been
read the bracket that the message means is the innermost open one, and as many items stand in it as
the message says; no bracket is open where a line is malformed. No gap and no item starts where the
reader has stopped because of a bracket. -/
theorem program_refused_atCause {nesting : Nat} {source : String} {cause : Problem} {stop : State}
    (refused : program nesting (.start source) = .failed (.problem cause) stop) :
    ∃ read, terminated source.toList = read ++ stop.rest ∧
      (cause.message =
          "Malformed line expression. Probably there are unnecessary ')' or ']' characters." →
        StartsWith isCloser stop.rest ∧ openBrackets read = []) ∧
      (∀ count : Nat,
        cause.message = "Cannot read array items (after " ++ Numeral.text count ++ ")." →
        (stop.rest = [] ∨ StartsWith (· == ')') stop.rest) ∧
          ∃ outer, openBrackets read = ⟨'[', count⟩ :: outer) ∧
      (cause.message = "No expression after a character '('." →
        (stop.rest = [] ∨ StartsWith isCloser stop.rest) ∧
          ∃ outer, openBrackets read = ⟨'(', 0⟩ :: outer) ∧
      (∀ count : Nat,
        cause.message = "Cannot read expression arguments (after " ++ Numeral.text count ++ ")." →
        (stop.rest = [] ∨ StartsWith (· == ']') stop.rest) ∧
          ∃ outer, openBrackets read = ⟨'(', count + 1⟩ :: outer) ∧
      (cause.message = "STRING has no end." → stop.rest = []) ∧
      (cause.concernsBrackets = true →
        StartsWithout opensGap stop.rest ∧ ∀ nesting, readItem nesting stop = .absent stop) := by
  obtain ⟨read, split, opens, shows⟩ := evidence_of_refused refused
  have told {problem : Problem} (message : cause.message = problem.message) :
      problem.showsInProgram stop.rest ∧ problem.opens (openBrackets read) := by
    obtain rfl := Problem.message_inj.mp message
    exact ⟨shows, opens⟩
  refine ⟨read, split, ?_, ?_, ?_, ?_, ?_, ?_⟩
  · exact fun message => @told .malformedLine message
  · exact fun count message => @told (.arrayItems count) message
  · exact fun message => @told .noHead message
  · exact fun count message => @told (.arguments count) message
  · exact fun message => (@told .openString message).1
  · exact fun brackets => readItem_of_closer (Problem.closer_of_showsInProgram brackets shows)

theorem program_refused_atCause_afterComment :
    program 3 (.start "f [a 'b]' (g 1)\n\t; [\n\tc ) d]") =
        .failed (.problem (.arrayItems 4)) ⟨[')', ' ', 'd', ']', '\n'], 3, 0⟩ ∧
      (Problem.arrayItems 4).message = "Cannot read array items (after 4)." ∧
      ∃ read outer,
        terminated "f [a 'b]' (g 1)\n\t; [\n\tc ) d]".toList =
          read ++ [')', ' ', 'd', ']', '\n'] ∧
        openBrackets read = ⟨'[', 4⟩ :: outer := by
  have refused : program 3 (.start "f [a 'b]' (g 1)\n\t; [\n\tc ) d]") =
      .failed (.problem (.arrayItems 4)) ⟨[')', ' ', 'd', ']', '\n'], 3, 0⟩ := by decide +kernel
  obtain ⟨read, split, -, array, -⟩ := program_refused_atCause refused
  obtain ⟨-, outer, opened⟩ := array 4 rfl
  exact ⟨refused, by decide, read, outer, split, opened⟩

end IndentLisp
