import IndentLisp.Proofs.Reader.LineMove
import IndentLisp.Text.Mode
import IndentLisp.Node.Tokens

/-!
# Inserting blanks

Before a line feed that is not in a literal, white space and a comment are passed over wherever
reading stands, and so is a whole blank line behind it. So a text is read in step with the same text
in which blanks have been inserted there.
-/

set_option autoImplicit false

namespace IndentLisp.Reader

open Grammar

/-! ## Modes -/

theorem run_append (mode : Mode) (left right : List Char) :
    mode.run (left ++ right) = (mode.run left).run right :=
  List.foldl_append

private theorem run_code_of_plain {text : List Char} (plain : ∀ c ∈ text, c ≠ '\'' ∧ c ≠ ';') :
    Mode.code.run text = .code := by
  induction text with
  | nil => rfl
  | cons c text ih =>
      obtain ⟨⟨noQuote, noComment⟩, others⟩ := List.forall_mem_cons.mp plain
      have step : Mode.code.step c = .code := by
        rw [Mode.step, if_neg noQuote, if_neg noComment]
      rw [Mode.run, List.foldl_cons, step]
      exact ih others

private theorem run_comment_of_inside {text : List Char}
    (inside : ∀ c ∈ text, isLineBreak c = false) :
    Mode.comment.run text = .comment := by
  induction text with
  | nil => rfl
  | cons c text ih =>
      obtain ⟨noBreak, others⟩ := List.forall_mem_cons.mp inside
      have step : Mode.comment.step c = .comment := by
        rw [Mode.step, if_neg]
        rintro rfl
        cases noBreak
      rw [Mode.run, List.foldl_cons, step]
      exact ih others

/-! ## Blanks -/

private theorem Blank.inside {blank : List Char} (isBlank : Blank blank) :
    ∀ c ∈ blank, isLineBreak c = false := by
  obtain ⟨spaces, isComment⟩ := isBlank
  exact List.forall_mem_append.mpr
    ⟨fun c member => not_isLineBreak_of_isSpace (spaces c member), isComment.inside⟩

theorem blank_of_comment {comment : List Char} (isComment : Comment comment) : Blank comment :=
  @Blank.mk [] comment (List.forall_mem_nil _) isComment

private theorem startsWith_of_blank {blank : List Char} (isBlank : Blank blank) (rest : List Char) :
    StartsWith opensGap (blank ++ '\n' :: rest) := by
  obtain @⟨spaces, comment, blank, isComment⟩ := isBlank
  cases spaces with
  | nil => cases isComment <;> exact ⟨_, _, rfl, rfl⟩
  | cons c spaces =>
      have space := blank c List.mem_cons_self
      exact ⟨c, _, rfl, by simp [opensGap, space]⟩

theorem endLine?_of_comment {comment : List Char} (isComment : Comment comment) (rest : List Char)
    (line level : Int) :
    State.endLine? ⟨comment ++ '\n' :: rest, line, level⟩ = some ⟨rest, line + 1, level⟩ := by
  have dropped := dropComment_append isComment .feed rest
  rw [List.append_assoc, List.singleton_append] at dropped
  rw [State.endLine?, dropped]
  rfl

private theorem comment_of_blank {blank rest : List Char} (isBlank : Blank blank)
    (solid : StartsWithout isSpace (blank ++ rest)) : Comment blank := by
  obtain @⟨spaces, comment, blank, isComment⟩ := isBlank
  cases spaces with
  | nil => exact isComment
  | cons c spaces =>
      have space := blank c List.mem_cons_self
      exact absurd ((solid c rfl).symm.trans space) nofun

private theorem startsWithout_skipSpace (state : State) :
    StartsWithout isSpace state.skipSpace.rest := by
  intro c first
  have stopped := List.head?_dropWhile_not isSpace state.rest
  have same : (state.rest.dropWhile isSpace).head? = some c := first
  rw [same] at stopped
  exact stopped

/-- A run of characters that open no gap ends before a gap at the latest. -/
private theorem startsWithout_append {p : Char → Bool}
    (apart : ∀ c, opensGap c = true → p c = false)
    {rest gap : List Char} (outside : StartsWithout p rest) (opens : StartsWith opensGap gap) :
    StartsWithout p (rest ++ gap) := by
  cases rest with
  | nil => exact StartsWith.without opens apart
  | cons c rest => exact startsWithout_cons.mpr (startsWithout_cons.mp outside)

private theorem numberObstacle?_append {rest gap gap' : List Char} (opens : StartsWith opensGap gap)
    (opens' : StartsWith opensGap gap') :
    numberObstacle? (rest ++ gap) = numberObstacle? (rest ++ gap') := by
  cases rest with
  | cons c rest => rfl
  | nil =>
      obtain ⟨c, more, rfl, opensGap⟩ := opens
      obtain ⟨c', more', rfl, opensGap'⟩ := opens'
      simp [numberObstacle?, endsNumber_of_opensGap opensGap, endsNumber_of_opensGap opensGap']

/-! ## Places before an insertion -/

/-- A line feed that ends the given line, what follows it in two texts, and how many lines further
down the second text goes on as the first one does. -/
structure Insertion where
  behind : List Char
  changed : List Char
  line : Int
  offset : Nat
  skips (level : Int) :
    State.skipBlankLines ⟨changed, line + 1, level⟩ =
      State.skipBlankLines ⟨behind, line + 1 + offset, level⟩

namespace Insertion

def move (insertion : Insertion) : LineMove where
  moved line := if insertion.line < line then line + insertion.offset else line
  later line := insertion.line < line
  later_succ later := by omega
  moved_succ later := by
    rw [if_pos later, if_pos (by omega)]
    omega

/-- Both readings stand before the line feed. In the second text a blank comes before it. -/
inductive Before (insertion : Insertion) : State → State → Prop where
  | mk {text blank : List Char} {line level : Int} :
      Blank blank → '\r' ∉ text → endsInLiteral text = false →
      line + lineEnds text = insertion.line →
      Before insertion ⟨text ++ '\n' :: insertion.behind, line, level⟩
        ⟨text ++ (blank ++ '\n' :: insertion.changed), line, level⟩

inductive Behind (insertion : Insertion) : State → State → Prop where
  | mk (level : Int) :
      Behind insertion ⟨insertion.behind, insertion.line + 1, level⟩
        ⟨insertion.changed, insertion.line + 1, level⟩

/-- The readings stand before the line feed, or the same text is read on. -/
def States (insertion : Insertion) (state state' : State) : Prop :=
  insertion.Before state state' ∨ insertion.move.Shifts state state'

/-- The readings may also have just passed the line feed. -/
def Starts (insertion : Insertion) (state state' : State) : Prop :=
  insertion.States state state' ∨ insertion.Behind state state'

variable {insertion : Insertion} {state state' : State} {blank : List Char} {line level : Int}

private theorem moved_eq (early : line ≤ insertion.line) : insertion.move.moved line = line :=
  if_neg (Int.not_lt.mpr early)

private theorem Before.line_eq (before : insertion.Before state state') :
    state'.line = insertion.move.moved state.line := by
  obtain @⟨text, _, line, _, _, _, _, count⟩ := before
  exact (moved_eq (by dsimp only; omega)).symm

private theorem joins_of_not_mem {left : List Char} (noReturn : '\r' ∉ left) (right : List Char) :
    Joins left right :=
  fun last => absurd (List.mem_of_getLast? last) noReturn

/-- Past a part of the text that leaves no literal open, the line feed is still ahead. -/
private theorem Before.of_append {left right : List Char} (isBlank : Blank blank)
    (noReturn : '\r' ∉ left ++ right) (outside : endsInLiteral (left ++ right) = false)
    (closed : Mode.code.run left = .code)
    (count : line + lineEnds (left ++ right) = insertion.line) :
    insertion.Before ⟨right ++ '\n' :: insertion.behind, line + lineEnds left, level⟩
      ⟨right ++ (blank ++ '\n' :: insertion.changed), line + lineEnds left, level⟩ := by
  obtain ⟨noLeft, noRight⟩ := not_or.mp (mt List.mem_append.mpr noReturn)
  refine .mk isBlank noRight ?_ ?_
  · rw [endsInLiteral, run_append, closed] at outside
    exact outside
  · rw [lineEnds_append (joins_of_not_mem noLeft right)] at count
    omega

private theorem Before.of_inside {left right : List Char} (isBlank : Blank blank)
    (noReturn : '\r' ∉ left ++ right) (outside : endsInLiteral (left ++ right) = false)
    (count : line + lineEnds (left ++ right) = insertion.line)
    (plain : ∀ c ∈ left, isLineBreak c = false ∧ c ≠ '\'' ∧ c ≠ ';') :
    insertion.Before ⟨right ++ '\n' :: insertion.behind, line, level⟩
      ⟨right ++ (blank ++ '\n' :: insertion.changed), line, level⟩ := by
  have none := lineEnds_eq_zero_of_inside fun c member => (plain c member).1
  have closed := run_code_of_plain fun c member => (plain c member).2
  have before := @Before.of_append _ _ _ level _ _ isBlank noReturn outside closed count
  rwa [none, Int.natCast_zero, Int.add_zero] at before

private theorem Before.skipSpace (before : insertion.Before state state') :
    insertion.Before state.skipSpace state'.skipSpace := by
  obtain @⟨text, blank, line, level, isBlank, noReturn, outside, count⟩ := before
  obtain ⟨spaces, rest, rfl, space, solid⟩ := exists_run isSpace text
  have plain : ∀ c ∈ spaces, isLineBreak c = false ∧ c ≠ '\'' ∧ c ≠ ';' := by
    intro c member
    have isSpace := space c member
    refine ⟨not_isLineBreak_of_isSpace isSpace, ?_, ?_⟩ <;> rintro rfl <;> cases isSpace
  rw [List.append_assoc, List.append_assoc]
  cases rest with
  | nil =>
      -- The white space of the blank is skipped as well, and what is left of it is a comment.
      obtain @⟨more, comment, moreSpace, isComment⟩ := isBlank
      have solid' : StartsWithout isSpace (comment ++ '\n' :: insertion.changed) := by
        cases isComment <;> exact startsWithout_cons.mpr rfl
      have first : State.skipSpace ⟨spaces ++ '\n' :: insertion.behind, line, level⟩ =
          ⟨'\n' :: insertion.behind, line, level⟩ :=
        skipSpace_append space (startsWithout_cons.mpr rfl) line level
      have second := skipSpace_append (List.forall_mem_append.mpr ⟨space, moreSpace⟩) solid'
        line level
      rw [List.append_assoc] at second
      rw [List.nil_append, List.nil_append, List.append_assoc, first, second]
      exact @Before.of_inside _ _ _ _ spaces [] (blank_of_comment isComment) noReturn outside count
        plain
  | cons c rest =>
      have solid' (more : List Char) : StartsWithout isSpace (c :: rest ++ more) :=
        startsWithout_cons.mpr (startsWithout_cons.mp solid)
      rw [skipSpace_append space (solid' _), skipSpace_append space (solid' _)]
      exact Before.of_inside isBlank noReturn outside count plain

/-- A comment and a line feed are passed in the text before the insertion. -/
private theorem Before.of_comment {comment right : List Char} (isBlank : Blank blank)
    (isComment : Comment comment) (noReturn : '\r' ∉ comment ++ '\n' :: right)
    (outside : endsInLiteral (comment ++ '\n' :: right) = false)
    (count : line + lineEnds (comment ++ '\n' :: right) = insertion.line) :
    insertion.Before ⟨right ++ '\n' :: insertion.behind, line + 1, level⟩
      ⟨right ++ (blank ++ '\n' :: insertion.changed), line + 1, level⟩ := by
  have closed : Mode.code.run (comment ++ ['\n']) = .code := by
    rw [run_append]
    cases isComment with
    | none => rfl
    | @some text inside =>
        have behind : Mode.code.run (';' :: text) = .comment := run_comment_of_inside inside
        rw [behind]
        rfl
  have one : lineEnds (comment ++ ['\n']) = 1 := lineEnds_append_of_inside isComment.inside _
  have split : comment ++ '\n' :: right = comment ++ ['\n'] ++ right := by simp
  rw [split] at noReturn outside count
  have before := @Before.of_append _ _ _ level _ _ isBlank noReturn outside closed count
  rwa [one] at before

/-- The line feed of the insertion is passed behind a comment, in the second text a longer one. -/
private theorem endLine?_at_insertion {comment : List Char} (isComment : Comment comment)
    (isComment' : Comment (comment ++ blank)) (here : line = insertion.line) :
    Option.Rel insertion.Starts
      (State.endLine? ⟨comment ++ '\n' :: insertion.behind, line, level⟩)
      (State.endLine? ⟨comment ++ (blank ++ '\n' :: insertion.changed), line, level⟩) := by
  rw [← List.append_assoc, endLine?_of_comment isComment, endLine?_of_comment isComment', here]
  exact .some (.inr (.mk level))

private theorem endLine?_before_insertion {comment rest : List Char} (isBlank : Blank blank)
    (isComment : Comment comment) (noReturn : '\r' ∉ comment ++ '\n' :: rest)
    (outside : endsInLiteral (comment ++ '\n' :: rest) = false)
    (count : line + lineEnds (comment ++ '\n' :: rest) = insertion.line) :
    Option.Rel insertion.Starts
      (State.endLine? ⟨comment ++ '\n' :: rest ++ '\n' :: insertion.behind, line, level⟩)
      (State.endLine?
        ⟨comment ++ '\n' :: rest ++ (blank ++ '\n' :: insertion.changed), line, level⟩) := by
  rw [List.append_assoc, List.append_assoc, List.cons_append, List.cons_append,
    endLine?_of_comment isComment, endLine?_of_comment isComment]
  exact .some (.inl (.inl (Before.of_comment isBlank isComment noReturn outside count)))

/-- Two readings end a line in step. They may pass the line feed before which the blank stands. -/
private theorem Before.endLine? (before : insertion.Before state state')
    (solid : StartsWithout isSpace state.rest) (solid' : StartsWithout isSpace state'.rest) :
    Option.Rel insertion.Starts state.endLine? state'.endLine? := by
  obtain @⟨text, blank, line, level, isBlank, noReturn, outside, count⟩ := before
  -- Either the line ends at the line feed of the insertion, or at one that comes before it.
  cases text with
  | nil =>
      have here : line = insertion.line := by simpa using count
      exact endLine?_at_insertion .none (comment_of_blank isBlank solid') here
  | cons c text =>
      by_cases isComment : c = ';'
      · subst isComment
        obtain ⟨inside, rest, rfl, letters, ends⟩ := exists_run (fun c => !isLineBreak c) text
        have noBreak : ∀ c ∈ inside, isLineBreak c = false := fun c member => by
          simpa using letters c member
        cases rest with
        | nil =>
            -- The blank only makes the comment longer.
            rw [List.append_nil] at count ⊢
            have more : ∀ c ∈ inside ++ blank, isLineBreak c = false :=
              List.forall_mem_append.mpr ⟨noBreak, Blank.inside isBlank⟩
            refine endLine?_at_insertion (.some noBreak) (.some more) ?_
            have none := lineEnds_eq_zero_of_inside (Comment.some noBreak).inside
            omega
        | cons d rest =>
            have isBreak : isLineBreak d = true := by simpa using startsWithout_cons.mp ends
            have noReturn' : d ≠ '\r' := by
              rintro rfl
              exact noReturn (by simp)
            obtain rfl : d = '\n' := by
              simpa [isLineBreak, noReturn'] using isBreak
            exact endLine?_before_insertion isBlank (.some noBreak) noReturn outside count
      · by_cases isFeed : c = '\n'
        · subst isFeed
          exact endLine?_before_insertion isBlank .none noReturn outside count
        · have notReturn : c ≠ '\r' := by
            rintro rfl
            exact noReturn List.mem_cons_self
          have noSpace : isSpace c = false := startsWithout_cons.mp solid
          have content : opensGap c = false := by
            simp [opensGap, noSpace, isLineBreak, isFeed, notReturn, isComment]
          rw [List.cons_append, List.cons_append, endLine?_eq_none (startsWithout_cons.mpr content),
            endLine?_eq_none (startsWithout_cons.mpr content)]
          exact .none

private theorem take?_eq_none_of_opens {text : List Char} (opens : StartsWith opensGap text)
    {c : Char} (content : opensGap c = false) : State.take? ⟨text, line, level⟩ c = none := by
  obtain ⟨d, rest, rfl, gap⟩ := opens
  have other : d ≠ c := by
    rintro rfl
    exact absurd (gap.symm.trans content) nofun
  exact if_neg other

theorem take?_cons (c d : Char) (rest : List Char) :
    State.take? ⟨c :: rest, line, level⟩ d = if c = d then some ⟨rest, line, level⟩ else none :=
  rfl

private theorem Before.take? (before : insertion.Before state state') {c : Char}
    (isBracket : c ∈ ['[', ']', '(', ')']) :
    Option.Rel insertion.Before (state.take? c) (state'.take? c) := by
  obtain @⟨text, blank, line, level, isBlank, noReturn, outside, count⟩ := before
  have plain : opensGap c = false ∧ isLineBreak c = false ∧ c ≠ '\'' ∧ c ≠ ';' := by
    simp only [List.mem_cons, List.not_mem_nil, or_false] at isBracket
    rcases isBracket with rfl | rfl | rfl | rfl <;> decide
  cases text with
  | nil =>
      rw [List.nil_append, List.nil_append, take?_eq_none_of_opens ⟨_, _, rfl, rfl⟩ plain.1,
        take?_eq_none_of_opens (startsWith_of_blank isBlank _) plain.1]
      exact .none
  | cons d text =>
      rw [List.cons_append, List.cons_append, take?_cons, take?_cons]
      split
      · next same =>
        subst same
        exact .some (@Before.of_inside _ _ _ _ [d] text isBlank noReturn outside count
          (List.forall_mem_singleton.mpr plain.2))
      · exact .none

/-! ## Tokens before an insertion -/

abbrev InStep (insertion : Insertion) (reader : State → Reply Node) (state state' : State) : Prop :=
  Reply.Corresponds insertion.Before insertion.move.moved (fun _ => Eq) insertion.move.Nodes
    (reader state) (reader state')

private theorem plain_of_not_endsSymbol {c : Char} (inside : (!endsSymbol c) = true) :
    isLineBreak c = false ∧ c ≠ '\'' ∧ c ≠ ';' := by
  refine ⟨not_isLineBreak_of_not_endsSymbol inside, ?_, ?_⟩ <;> rintro rfl <;> cases inside

private theorem Before.readNumber (before : insertion.Before state state') :
    insertion.InStep readNumber state state' := by
  obtain @⟨text, blank, line, level, isBlank, noReturn, outside, count⟩ := before
  obtain ⟨digits, rest, rfl, decimal, ends⟩ := exists_run Char.isDigit text
  have early : line ≤ insertion.line := by omega
  have opens : StartsWith opensGap ('\n' :: insertion.behind) := ⟨_, _, rfl, rfl⟩
  have opens' := startsWith_of_blank isBlank insertion.changed
  have closes (c : Char) (gap : opensGap c = true) : c.isDigit = false :=
    isDigit_eq_false_of_endsNumber (endsNumber_of_opensGap gap)
  have apart := startsWithout_append closes ends opens
  have apart' := startsWithout_append closes ends opens'
  rw [InStep, List.append_assoc, List.append_assoc, readNumber_append decimal apart,
    readNumber_append decimal apart', numberObstacle?_append opens opens']
  split
  · next none =>
    subst none
    exact .absent (.mk isBlank noReturn outside count)
  · split
    · exact .failed rfl (moved_eq early).symm
    · split
      · refine .found (congrArg (Node.number _) (moved_eq early).symm) ?_
        exact Before.of_inside isBlank noReturn outside count fun c member =>
          plain_of_not_endsSymbol (not_endsSymbol_of_isDigit (decimal c member))
      · exact .failed rfl (moved_eq early).symm

private theorem Before.readSymbol (before : insertion.Before state state') :
    insertion.InStep readSymbol state state' := by
  obtain @⟨text, blank, line, level, isBlank, noReturn, outside, count⟩ := before
  obtain ⟨name, rest, rfl, letters, ends⟩ := exists_run (fun c => !endsSymbol c) text
  have early : line ≤ insertion.line := by omega
  have opens : StartsWith opensGap ('\n' :: insertion.behind) := ⟨_, _, rfl, rfl⟩
  have opens' := startsWith_of_blank isBlank insertion.changed
  have closes (c : Char) (gap : opensGap c = true) : (!endsSymbol c) = false := by
    simp [endsSymbol_of_endsNumber (endsNumber_of_opensGap gap)]
  have apart := startsWithout_append closes ends opens
  have apart' := startsWithout_append closes ends opens'
  rw [InStep, List.append_assoc, List.append_assoc, readSymbol_append letters apart,
    readSymbol_append letters apart']
  split
  · next none =>
    subst none
    exact .absent (.mk isBlank noReturn outside count)
  · refine .found (congrArg (Node.symbol _) (moved_eq early).symm) ?_
    exact Before.of_inside isBlank noReturn outside count fun c member =>
      plain_of_not_endsSymbol (letters c member)

/-- A literal that is closed before the line feed is read in step. -/
private theorem readLiteral_inStep {text : List Char} (isBlank : Blank blank)
    (noReturn : '\r' ∉ text) (closed : (Mode.literal.run text).inLiteral = false)
    (count : line + lineEnds text = insertion.line) :
    Reply.Corresponds insertion.Before insertion.move.moved (fun _ => Eq) Eq
      (readLiteral level (text ++ '\n' :: insertion.behind) line)
      (readLiteral level (text ++ (blank ++ '\n' :: insertion.changed)) line) := by
  have early : line ≤ insertion.line := by omega
  induction text using Lexer.spanLiteral.induct generalizing line with
  | case1 => cases closed
  | case2 rest =>
      rw [lineEnds_cons_of_inside rfl] at count
      rw [List.cons_append, List.cons_append, readLiteral, readLiteral]
      exact .found rfl (.mk isBlank (List.not_mem_of_not_mem_cons noReturn) closed count)
  | case3 c rest ih =>
      have noRest : '\r' ∉ rest := fun member =>
        noReturn (List.mem_cons_of_mem _ (List.mem_cons_of_mem _ member))
      simp only [List.cons_append, readLiteral]
      cases escape : Quoted.unescape? c with
      | none => exact .failed rfl (moved_eq early).symm
      | some meant =>
          have inside := not_isLineBreak_of_unescape? escape
          rw [lineEnds_cons_of_inside rfl, lineEnds_cons_of_inside inside] at count
          exact (ih noRest closed count early).map (congrArg _)
  | case4 c rest noQuote noEscape ih =>
      have noRest : '\r' ∉ rest := List.not_mem_of_not_mem_cons noReturn
      -- A backslash at the end would leave the literal open.
      have notEscape : c ≠ '\\' := by
        rintro rfl
        cases rest with
        | nil => cases closed
        | cons d rest => exact noEscape d rest rfl rfl
      have step : Mode.literal.step c = .literal := by
        rw [Mode.step, if_neg noQuote, if_neg notEscape]
      rw [Mode.run, List.foldl_cons, step] at closed
      have joins (right : List Char) : Joins [c] right := joins_of_not_mem
        (fun member => noReturn (List.mem_singleton.mp member ▸ List.mem_cons_self)) right
      have sum : lineEnds (c :: rest) = lineEnds [c] + lineEnds rest := lineEnds_append (joins rest)
      rw [sum] at count
      rw [List.cons_append, List.cons_append, readLiteral_raw noQuote notEscape (joins _),
        readLiteral_raw noQuote notEscape (joins _)]
      exact (ih noRest closed (by omega) (by omega)).map (congrArg _)

private theorem Before.readString (before : insertion.Before state state') :
    insertion.InStep readString state state' := by
  obtain @⟨text, blank, line, level, isBlank, noReturn, outside, count⟩ := before
  have early : line ≤ insertion.line := by omega
  rw [InStep, Reader.readString, Reader.readString]
  cases text with
  | nil =>
      rw [List.nil_append, List.nil_append, take?_eq_none_of_opens ⟨_, _, rfl, rfl⟩ rfl,
        take?_eq_none_of_opens (startsWith_of_blank isBlank _) rfl]
      exact .absent (.mk isBlank noReturn outside count)
  | cons c text =>
      rw [List.cons_append, List.cons_append, take?_cons, take?_cons]
      by_cases isQuote : c = '\''
      · subst isQuote
        rw [lineEnds_cons_of_inside rfl] at count
        have inner := @readLiteral_inStep _ _ _ level _ isBlank
          (List.not_mem_of_not_mem_cons noReturn) outside count
        refine inner.map fun same => ?_
        rw [same]
        exact congrArg (Node.string _) (moved_eq early).symm
      · rw [if_neg isQuote, if_neg isQuote]
        exact .absent (.mk isBlank noReturn outside count)

/-! ## Lines before an insertion -/

private theorem Before.sameTabs (before : insertion.Before state state')
    (content : state.skipSpace.endLine? = none) : state'.tabs? = state.tabs? := by
  obtain @⟨text, blank, line, level, isBlank, noReturn, outside, count⟩ := before
  obtain ⟨tabs, rest, rfl, tab, ends⟩ := exists_run (· == '\t') text
  cases rest with
  | nil =>
      -- A line of tabs alone would be blank.
      have space : ∀ c ∈ tabs, isSpace c = true := by
        intro c member
        rw [beq_iff_eq.mp (tab c member)]
        rfl
      rw [List.append_nil, skipSpace_append space (startsWithout_cons.mpr rfl)] at content
      cases content
  | cons c rest =>
      have outside (more : List Char) : StartsWithout (· == '\t') (c :: rest ++ more) :=
        ends.congr rfl
      rw [State.tabs?_eq, State.tabs?_eq]
      dsimp only
      rw [List.append_assoc, List.append_assoc, dropWhile_append_of_without tab (outside _),
        dropWhile_append_of_without tab (outside _), takeWhile_append_of_without tab (outside _),
        takeWhile_append_of_without tab (outside _)]
      rfl

private theorem Behind.skipBlankLines (behind : insertion.Behind state state') :
    insertion.move.Shifts state.skipBlankLines state'.skipBlankLines := by
  obtain ⟨level⟩ := behind
  rw [insertion.skips level]
  apply LineMove.Shifts.skipBlankLines
  have later : insertion.line < insertion.line + 1 := by omega
  exact ⟨later, by rw [move]; dsimp only; rw [if_pos later]⟩

private theorem States.skipSpace (states : insertion.States state state') :
    insertion.States state.skipSpace state'.skipSpace := by
  rcases states with before | shifts
  · exact .inl before.skipSpace
  · exact .inr shifts.skipSpace

private theorem States.endLine? (states : insertion.States state state') :
    Option.Rel insertion.Starts state.skipSpace.endLine? state'.skipSpace.endLine? := by
  rcases states with before | shifts
  · exact before.skipSpace.endLine? (startsWithout_skipSpace _) (startsWithout_skipSpace _)
  · exact rel_imp (fun later => .inl (.inr later)) shifts.skipSpace.endLine?

private theorem States.skipBlankLines (states : insertion.States state state') :
    insertion.States state.skipBlankLines state'.skipBlankLines :=
  skipBlankLines_inStep States.endLine?
    (fun starts => starts.imp id fun behind => .inr behind.skipBlankLines) states

private theorem Starts.skipBlankLines (starts : insertion.Starts state state') :
    insertion.States state.skipBlankLines state'.skipBlankLines := by
  rcases starts with states | behind
  · exact states.skipBlankLines
  · exact .inr behind.skipBlankLines

/-- A text and the same text with a blank before a line feed are read in step. -/
def correspondence (insertion : Insertion) : Correspondence where
  states := insertion.States
  starts := insertion.Starts
  moved := insertion.move.moved
  causes _ := Eq
  nodes := insertion.move.Nodes
  starts_of_states := .inl
  lineMoved := by
    rintro state state' (before | shifts)
    · exact before.line_eq
    · exact insertion.move.shift.lineMoved shifts
  sameLevel := by
    rintro state state' (before | shifts)
    · obtain ⟨⟩ := before
      rfl
    · exact insertion.move.shift.sameLevel shifts
  withLevel level := by
    rintro (before | shifts)
    · obtain ⟨isBlank, noReturn, outside, count⟩ := before
      exact .inl (.mk isBlank noReturn outside count)
    · exact .inr (insertion.move.shift.withLevel level shifts)
  sameEnd := by
    rintro state state' (before | shifts)
    · obtain ⟨⟩ := before
      rw [State.atEnd, State.atEnd, List.isEmpty_eq_false_iff.mpr (by simp),
        List.isEmpty_eq_false_iff.mpr (by simp)]
    · exact insertion.move.shift.sameEnd shifts
  sameTabs := by
    intro state state' starts
    rcases starts.skipBlankLines with before | shifts
    · exact before.sameTabs (endLine?_skipBlankLines state)
    · rw [shifts.moved]
      rfl
  skipSpace := States.skipSpace
  skipBlankLines := Starts.skipBlankLines
  endLine := States.endLine?
  bracket := by
    rintro state state' c isBracket (before | shifts)
    · exact rel_imp .inl (before.take? isBracket)
    · exact rel_imp .inr (shifts.take? c)
  atom := by
    rintro state state' reader token (before | shifts)
    · have inStep : insertion.InStep reader state state' :=
        atom_cases (motive := fun reader => insertion.InStep reader state state') token
          before.readNumber before.readString before.readSymbol
      exact inStep.imp .inl
    · exact (shifts.atom token).imp .inr
  sameProblem line _ outside := insertion.move.shift.sameProblem line outside
  sameHeadProblem := LineMove.Nodes.headProblem?_eq
  nodesBlock := LineMove.Nodes.block
  nodesExpression := LineMove.Nodes.expression
  nodesArray := LineMove.Nodes.array

theorem movesLines (insertion : Insertion) : insertion.correspondence.MovesLines where
  nodes same := same
  causes same := same.symm

end Insertion

end IndentLisp.Reader
