import IndentLisp.Proofs.Messages
import IndentLisp.Proofs.Program.Outcome
import IndentLisp.Proofs.Reader.Causes
import IndentLisp.Text.Content

/-!
# Indented first lines

The outermost block ends at the end of the text, unless the first line with content is indented. So
that is the only case in which something is left over behind the block.
-/

set_option autoImplicit false

namespace IndentLisp

open Grammar Reader

/-! ## Lines -/

private theorem splitLines_cons_of_inside {c : Char} (inside : isLineBreak c = false)
    (rest : List Char) :
    splitLines (c :: rest) = (splitLines rest).modifyHead (c :: ·) := by
  rw [splitLines, if_neg (by simp [inside])]
  rintro tail rfl -
  exact absurd inside (by decide)

private theorem splitLines_lineEnd {ending rest : List Char} (isEnding : LineEnd ending)
    (joins : Joins ending rest) : splitLines (ending ++ rest) = [] :: splitLines rest := by
  cases isEnding with
  | returnFeed | feed => rfl
  | «return» =>
      rw [List.singleton_append, splitLines, if_pos (by decide)]
      rintro tail - rfl
      exact joins rfl rfl

private theorem splitLines_append {line ending rest : List Char}
    (inside : ∀ c ∈ line, isLineBreak c = false) (isEnding : LineEnd ending)
    (joins : Joins ending rest) :
    splitLines (line ++ (ending ++ rest)) = line :: splitLines rest := by
  induction line with
  | nil => exact splitLines_lineEnd isEnding joins
  | cons c line ih =>
      obtain ⟨first, others⟩ := List.forall_mem_cons.mp inside
      rw [List.cons_append, splitLines_cons_of_inside first, ih others, List.modifyHead_cons]

private theorem splitLines_eq_cons (text : List Char) :
    ∃ others, splitLines text = text.takeWhile (fun c => !isLineBreak c) :: others := by
  fun_induction splitLines text with
  | case1 => exact ⟨[], rfl⟩
  | case2 rest ih => exact ⟨_, rfl⟩
  | case3 c rest _ isBreak => exact ⟨_, by rw [List.takeWhile_cons, isBreak]; rfl⟩
  | case4 c rest _ inside ih =>
      obtain ⟨others, split⟩ := ih
      refine ⟨others, ?_⟩
      rw [split, List.modifyHead_cons, List.takeWhile_cons, if_pos (by simpa using inside)]

/-- A line feed at the end adds nothing to a text but an empty line, if that. -/
private theorem splitLines_append_feed (text : List Char) :
    splitLines (text ++ ['\n']) = splitLines text ∨
      splitLines (text ++ ['\n']) = splitLines text ++ [[]] := by
  fun_induction splitLines text with
  | case1 => exact .inr rfl
  | case2 rest ih => exact ih.imp (congrArg (List.cons [])) (congrArg (List.cons []))
  | case3 c rest noPair isBreak ih =>
      by_cases pair : c = '\r' ∧ rest = []
      · obtain ⟨rfl, rfl⟩ := pair
        exact .inl rfl
      · have next : splitLines (c :: (rest ++ ['\n'])) = [] :: splitLines (rest ++ ['\n']) := by
          rw [splitLines, if_pos isBreak]
          intro tail isReturn split
          cases rest with
          | nil => exact pair ⟨isReturn, rfl⟩
          | cons d rest =>
              obtain ⟨rfl, -⟩ := List.cons.inj split
              exact noPair rest isReturn rfl
        rw [List.cons_append, next]
        exact ih.imp (congrArg (List.cons [])) (congrArg (List.cons []))
  | case4 c rest _ inside ih =>
      rw [List.cons_append, splitLines_cons_of_inside (by simpa using inside)]
      refine ih.imp (congrArg _) fun added => ?_
      obtain ⟨others, split⟩ := splitLines_eq_cons rest
      rw [added, split]
      rfl

private theorem firstContent?_append_empty (number : Int) (lines : List (List Char)) :
    firstContent? number (lines ++ [[]]) = firstContent? number lines := by
  induction lines generalizing number with
  | nil => rfl
  | cons line lines ih => rw [List.cons_append, firstContent?, firstContent?, ih]

private theorem firstContent?_terminated (number : Int) (text : List Char) :
    firstContent? number (splitLines (terminated text)) =
      firstContent? number (splitLines text) := by
  rw [terminated]
  split
  · rfl
  · rcases splitLines_append_feed text with same | added
    · rw [same]
    · rw [added, firstContent?_append_empty]

private theorem dropWhile_takeWhile {p q : Char → Bool} (weaker : ∀ c, p c = true → q c = true)
    (text : List Char) : (text.takeWhile q).dropWhile p = (text.dropWhile p).takeWhile q := by
  induction text with
  | nil => rfl
  | cons c text ih =>
      cases first : p c with
      | true => simp [weaker c first, first, ih]
      | false => cases inside : q c <;> simp [first, inside]

private theorem hasContent_eq_false {spaces comment : List Char}
    (blank : ∀ c ∈ spaces, isSpace c = true)
    (isComment : Comment comment) : hasContent (spaces ++ comment) = false := by
  rw [hasContent, List.dropWhile_append_of_pos blank]
  cases isComment <;> rfl

namespace Reader

/-! ## The line at which reading starts -/

/-- Skipping blank lines stops at the first line with content. -/
private theorem firstContent?_skipBlankLines {state : State} (ended : Ended state.rest) :
    firstContent? state.line (splitLines state.rest) =
      if state.skipBlankLines.atEnd then none
      else some (state.skipBlankLines.line,
        state.skipBlankLines.rest.takeWhile fun c => !isLineBreak c) := by
  induction state using State.skipBlankLines.induct with
  | case1 state next last ih =>
      obtain ⟨spaces, blank, first⟩ := skipSpace_advances state
      obtain ⟨comment, ending, isComment, isEnding, joins, second⟩ := endLine?_eq_some_iff.mp last
      have inside : ∀ c ∈ spaces ++ comment, isLineBreak c = false := by
        intro c member
        rcases List.mem_append.mp member with space | other
        · exact not_isLineBreak_of_isSpace (blank c space)
        · exact isComment.inside c other
      have whole : state.rest = (spaces ++ comment) ++ (ending ++ next.rest) := by
        rw [first.rest, second.rest]
        simp only [List.append_assoc]
      have line : next.line = state.line + 1 := by
        rw [second.line, lineEnds_append_of_inside isComment.inside, isEnding.lineEnds_eq]
        rfl
      rw [whole, splitLines_append inside isEnding joins, firstContent?,
        hasContent_eq_false blank isComment, if_neg Bool.false_ne_true,
        skipBlankLines_of_endLine? last, ← line]
      exact ih (ended_endLine? (ended_skipSpace ended) last)
  | case2 state content =>
      have here := skipBlankLines_eq_self content
      rw [here]
      obtain ⟨others, lines⟩ := splitLines_eq_cons state.rest
      rcases content_skipBlankLines ended with done | ⟨c, rest, split, solid⟩
      · rw [here] at done
        rw [State.atEnd, done]
        rfl
      · rw [State.skipGap, here] at split
        have spaces : state.rest.dropWhile isSpace = c :: rest := split
        have more : state.atEnd = false := by
          cases empty : state.rest with
          | nil => simp [empty] at spaces
          | cons => rw [State.atEnd, empty]; rfl
        obtain ⟨noBreak, noComment⟩ : isLineBreak c = false ∧ c ≠ ';' := by
          simp [opensGap] at solid
          exact ⟨solid.1.2, solid.2⟩
        have filled : hasContent (state.rest.takeWhile fun c => !isLineBreak c) = true := by
          have weaker : ∀ c, isSpace c = true → (!isLineBreak c) = true := fun c space => by
            rw [not_isLineBreak_of_isSpace space]
            rfl
          rw [hasContent, dropWhile_takeWhile weaker, spaces, List.takeWhile_cons,
            if_pos (by simp [noBreak])]
          split
          · next same => cases same
          · next same => exact absurd (List.cons.inj same).1 noComment
          · rfl
        rw [lines, firstContent?, if_pos filled, more]
        rfl

/-- A line is indented when its tabs count for more than none. -/
private theorem isIndented_takeWhile (state : State) :
    isIndented (state.rest.takeWhile fun c => !isLineBreak c) = true ↔
      ∃ depth, state.tabs? = some depth ∧ 0 < depth := by
  have head (text : List Char) {c : Char} (inside : isLineBreak c = false) :
      (text.takeWhile fun c => !isLineBreak c).head? = some c ↔ text.head? = some c := by
    cases text with
    | nil => rfl
    | cons d text =>
        rw [List.takeWhile_cons, List.head?_cons]
        split
        · rw [List.head?_cons]
        · next isBreak =>
          refine ⟨fun same => (by cases same), ?_⟩
          rintro ⟨⟩
          simp [inside] at isBreak
  have tab : ∀ c : Char, (c == '\t') = true → (!isLineBreak c) = true := by
    intro c isTab
    rw [eq_of_beq isTab]
    rfl
  have tabs : state.rest.head? = some '\t' ↔ 0 < (state.rest.takeWhile (· == '\t')).length := by
    cases state.rest with
    | nil => simp
    | cons d text => cases isTab : d == '\t' <;> simp_all
  rw [State.tabs?_eq, isIndented, Bool.and_eq_true, beq_iff_eq, bne_iff_ne, head _ rfl,
    dropWhile_takeWhile tab, ne_eq, head _ rfl, tabs]
  split
  · next space => simp [space]
  · next noSpace => simp [noSpace]

/-! ## Listings -/

/-- Only a first line can be indented at the start, and it is not read any further. -/
private theorem indentedStart_of_listing {nesting : Nat} {above : Option Nat} {state : State}
    {line : Int} (ended : Ended state.rest)
    (refused : listing nesting above state = .error (.diagnosed ⟨.indentedStart, line⟩)) :
    above = none ∧ state.skipBlankLines.atEnd = false ∧ state.skipBlankLines.line = line ∧
      ∃ depth, state.skipBlankLines.tabs? = some depth ∧ 0 < depth := by
  induction long : state.rest.length using Nat.strongRecOn generalizing above state with
  | ind size ih =>
      generalize failed : ParseError.diagnosed ⟨.indentedStart, line⟩ = error at refused
      cases listing_eq_error_iff.mp refused with
      | spaces | tooDeep | headless | unfinished => cases failed
      | @excess depth more tabs deep =>
          cases above with
          | none =>
              cases failed
              exact ⟨rfl, more, rfl, depth, tabs, deep⟩
          | some => cases failed
      | @phrase depth failure stop opens read =>
          have endedStart : Ended (phraseStart state depth).rest :=
            ended_skipSpace (ended_skipBlankLines ended)
          have explained := phrase_explained (nesting - (depth + 1)) endedStart
          rw [read] at explained
          cases failure with
          | numeralTooLong => cases failed
          | problem cause =>
              cases failed
              cases explained with
              | failed shows => exact (shows _ rfl).elim
      | below first following =>
          obtain ⟨_, -, -, -, endedBelow⟩ := first.written ended
          have shorter := first.length_lt
          obtain ⟨same, -⟩ := ih _ (by omega) endedBelow (failed ▸ following) rfl
          cases same

private theorem parse_eq_indentedStart_iff {nesting : Nat} {source : String} {line : Int} :
    parse nesting source = .error (.diagnosed ⟨.indentedStart, line⟩) ↔
      ∃ content, firstContent? 1 (splitLines source.toList) = some (line, content) ∧
        isIndented content = true := by
  have ended := ended_start source
  have found : firstContent? 1 (splitLines source.toList) = _ :=
    (firstContent?_terminated 1 source.toList).symm.trans (firstContent?_skipBlankLines ended)
  rw [found]
  constructor
  · intro refused
    rcases parse_listing nesting source with ⟨_, _, parsed, -, -⟩ | ⟨error, failed, listed⟩
    · rw [refused] at parsed
      cases parsed
    · obtain rfl := Except.error.inj (refused.symm.trans failed)
      obtain ⟨-, more, same, indented⟩ := indentedStart_of_listing ended listed
      refine ⟨_, ?_, (isIndented_takeWhile _).mpr indented⟩
      rw [if_neg (by simp [more]), same]
  · rintro ⟨content, first, indented⟩
    split at first
    · cases first
    · next more =>
      cases first
      obtain ⟨depth, tabs, deep⟩ := (isIndented_takeWhile _).mp indented
      have refuses : Refuses nesting none (.start source) _ :=
        .excess (by simpa using more) tabs deep
      exact parse_of_listing_error refuses.listing_eq

/-! ## The outermost block -/

section

variable {nesting : Nat}

private theorem block_start_ne_absent {next : State} (source : String) :
    block nesting (.start source) ≠ .absent next := by
  intro absent
  have listed : BlockListed nesting none (.start source) (block nesting (.start source)) :=
    @block_listed nesting none (.start source) (ended_start source) rfl
  rw [absent] at listed
  exact listed

private theorem parse_of_block_failed {source : String} {failure : Failure} {stop : State}
    (failed : block nesting (.start source) = .failed failure stop) :
    parse nesting source = .error (failure.atState stop) := by
  rw [parse, program, failed]
  rfl

private theorem parse_of_block_unfinished {source : String} {body : Body} {stop : State}
    (found : block nesting (.start source) = .found body stop) (more : stop.rest ≠ []) :
    parse nesting source = .error (.diagnosed ⟨.indentedStart, stop.line⟩) := by
  have notAtEnd : ¬ stop.atEnd = true := fun done => more (List.isEmpty_iff.mp done)
  rw [parse, program, found, Reply.bind, if_neg notAtEnd]
  rfl

private theorem parse_of_block_finished {source : String} {body : Body} {stop : State}
    (found : block nesting (.start source) = .found body stop) (done : stop.rest = []) :
    parse nesting source = .ok body.toNode := by
  have atEnd : stop.atEnd = true := List.isEmpty_iff.mpr done
  rw [parse, program, found, Reply.bind, if_pos atEnd]

end

/-- What is left unread behind the outermost block is an indented first line. -/
private theorem block_start_cases (nesting : Nat) (source : String) :
    (∃ line content, firstContent? 1 (splitLines source.toList) = some (line, content) ∧
        isIndented content = true) ∨
      (∃ cause stop, cause ≠ .tooDeep ∧
        block nesting (.start source) = .failed (.problem cause) stop) ∨
      (∃ body stop, block nesting (.start source) = .found body stop ∧ stop.rest = []) ∨
      (∃ stop, block nesting (.start source) = .failed (.problem .tooDeep) stop) ∨
      ∃ digits stop, block nesting (.start source) = .failed (.numeralTooLong digits) stop := by
  cases result : block nesting (.start source) with
  | absent => exact absurd result (block_start_ne_absent source)
  | failed failure stop =>
      cases failure with
      | problem cause =>
          by_cases deep : cause = .tooDeep
          · exact .inr (.inr (.inr (.inl ⟨stop, by rw [deep]⟩)))
          · exact .inr (.inl ⟨cause, stop, deep, rfl⟩)
      | numeralTooLong digits => exact .inr (.inr (.inr (.inr ⟨digits, stop, rfl⟩)))
  | found body stop =>
      by_cases done : stop.rest = []
      · exact .inr (.inr (.inl ⟨body, stop, rfl, done⟩))
      · have refused := parse_of_block_unfinished result done
        exact .inl ⟨stop.line, parse_eq_indentedStart_iff.mp refused⟩

end Reader

/-- A text is refused with the message of an internal error exactly if its first line with content
is indented, and on that line. Of any other text the outermost block is refused with a diagnostic or
ends where the text ends, unless something is nested too deep or a numeral is beyond the digit
limit. -/
theorem parse_internal_error (nesting : Nat) (source : String) :
    (∀ line : Int,
      (∃ problem : Problem, problem.message = "Internal error (bug in a parser)." ∧
        parse nesting source = .error (.diagnosed ⟨problem, line⟩)) ↔
      ∃ content, firstContent? 1 (splitLines source.toList) = some (line, content) ∧
        isIndented content = true) ∧
    ((∃ line content, firstContent? 1 (splitLines source.toList) = some (line, content) ∧
        isIndented content = true) ∨
      (∃ cause stop, cause ≠ .tooDeep ∧
        block nesting (.start source) = .failed (.problem cause) stop) ∨
      (∃ body stop, block nesting (.start source) = .found body stop ∧ stop.rest = []) ∨
      (∃ stop, block nesting (.start source) = .failed (.problem .tooDeep) stop) ∨
      ∃ numeral stop, numeral <:+: source.toList ∧ (∀ c ∈ numeral, c.isDigit = true) ∧
        Numeral.digitLimit < numeral.length ∧
        block nesting (.start source) = .failed (.numeralTooLong numeral.length) stop) := by
  constructor
  · intro line
    rw [← @parse_eq_indentedStart_iff nesting]
    constructor
    · rintro ⟨problem, message, refused⟩
      rwa [Problem.message_eq_internal_iff.mp message] at refused
    · intro refused
      exact ⟨.indentedStart, rfl, refused⟩
  · refine (block_start_cases nesting source).imp_right
      (.imp_right (.imp_right (.imp_right ?_)))
    rintro ⟨digits, stop, failed⟩
    obtain ⟨numeral, inside, decimal, rfl, long⟩ :=
      exists_longNumeral (parse_of_block_failed failed)
    exact ⟨numeral, stop, inside, decimal, long, failed⟩

/-- There are texts whose first line is not indented and whose outermost block neither is refused
with a diagnostic nor ends where the text ends. -/
theorem block_without_diagnostic :
    ¬ ∀ source : String,
      (∃ line content, firstContent? 1 (splitLines source.toList) = some (line, content) ∧
        isIndented content = true) ∨
      (∃ cause stop, block 500 (.start source) = .failed (.problem cause) stop) ∨
      ∃ body stop, block 500 (.start source) = .found body stop ∧ stop.rest = [] := by
  intro ends
  have decimal : ∀ c ∈ List.replicate (Numeral.digitLimit + 1) '0', c.isDigit = true := by
    intro c member
    rw [List.eq_of_mem_replicate member]
    rfl
  have refused := parse_longNumeral 500 decimal (by simp) (by decide)
  rcases ends ("f " ++ String.ofList (List.replicate (Numeral.digitLimit + 1) '0')) with
    ⟨line, indented⟩ | ⟨cause, stop, failed⟩ | ⟨body, stop, found, done⟩
  · rw [parse_eq_indentedStart_iff.mpr indented] at refused
    cases refused
  · rw [parse_of_block_failed failed] at refused
    cases refused
  · rw [parse_of_block_finished found done] at refused
    cases refused

end IndentLisp
