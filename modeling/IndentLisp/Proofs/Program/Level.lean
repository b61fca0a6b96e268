import IndentLisp.Proofs.Reader.Causes
import IndentLisp.Proofs.Reader.Places

/-!
# Levels given back

A block that has been read leaves the indentation level as it was, unless the text ends in it, and
it ends before a line that does not belong to it. So behind a line of a block the checks of the
indentation never fail, and the next line is too deep exactly where it is two levels deeper.
-/

set_option autoImplicit false

namespace IndentLisp.Reader

open Grammar

/-- The tabs of the next line can be counted, and their number is as required. -/
def State.NextTabs (state : State) (required : Int → Prop) : Prop :=
  ∃ count : Nat, state.countTabs = .found count state ∧ required count

/-- Reading stands at the end of the text or at the start of a line with content. That line has as
many tabs as required, and the level is as given. -/
structure Settles (level : Int) (required : Int → Prop) (next : State) : Prop where
  skipped : next.skipBlankLines = next
  level : next.atEnd = false → next.level = level
  tabs : next.atEnd = false → next.NextTabs required

section

variable {state next : State} {level : Int} {required required' : Int → Prop}

private theorem countTabs_eq_found_iff {count : Nat} :
    state.countTabs = .found count next ↔ state.tabs? = some count ∧ next = state := by
  rw [State.countTabs]
  cases tabs : state.tabs? with
  | none => simp [State.refuse]
  | some other => simp [eq_comm]

private theorem nextTabs_iff :
    state.NextTabs required ↔ ∃ count : Nat, state.tabs? = some count ∧ required count := by
  simp only [State.NextTabs, countTabs_eq_found_iff, and_true]

private theorem Settles.mono (settles : Settles level required next)
    (weaker : ∀ count, required count → required' count) : Settles level required' next where
  skipped := settles.skipped
  level := settles.level
  tabs more := (settles.tabs more).imp fun count tabs => ⟨tabs.1, weaker count tabs.2⟩

private theorem Settles.cases (settles : Settles level required next) :
    next.atEnd = true ∨ next.level = level ∧ next.NextTabs required := by
  cases done : next.atEnd with
  | true => exact .inl rfl
  | false => exact .inr ⟨settles.level done, settles.tabs done⟩

private theorem settles_of_atEnd (skipped : next.skipBlankLines = next) (done : next.atEnd = true) :
    Settles level required next where
  skipped := skipped
  level more := by simp [done] at more
  tabs more := by simp [done] at more

private theorem level_skipBlankLines (state : State) :
    state.skipBlankLines.level = state.level := by
  obtain ⟨_, _, advances⟩ := skipBlankLines_advances state
  exact advances.level

private theorem level_of_endLine? (ended : state.endLine? = some next) :
    next.level = state.level := by
  obtain ⟨_, _, _, _, _, advances⟩ := endLine?_eq_some_iff.mp ended
  exact advances.level

private theorem level_of_phrase {nesting : Nat} {value : Phrase}
    (found : phrase nesting state = .found value next) : next.level = state.level := by
  have stops := phrase_stops nesting state
  rw [found] at stops
  cases stops.reaches_of_found with
  | found _ level => exact level

end

/-! ## The checks of the indentation -/

section

variable {state next : State} {count : Nat}

private theorem tabs?_of_absent_indent (absent : state.indent = .absent next) :
    ∃ count : Nat, state.tabs? = some count ∧ (count : Int) ≠ state.level + 1 := by
  rw [State.indent_eq, State.checked] at absent
  cases tabs : state.tabs? with
  | none => simp [tabs, State.refuse] at absent
  | some count =>
      rw [tabs] at absent
      exact ⟨count, rfl, fun same => by simp [same] at absent⟩

private theorem level_of_indent (opened : state.indent = .found () next) :
    next.level = state.level + 1 := by
  rw [State.indent_eq] at opened
  rw [State.eq_of_checked_found opened]

private theorem dedent_of_tabs (tabs : state.tabs? = some count) :
    state.dedent =
      if (count : Int) < state.level then .found () { state with level := state.level - 1 }
      else .absent state := by
  rw [State.dedent_eq, State.checked, tabs]

private theorem nodent_of_tabs (tabs : state.tabs? = some count) :
    state.nodent = if (count : Int) = state.level then .found () state else .absent state := by
  rw [State.nodent_eq, State.checked, tabs]

end

/-! ## Blocks and lines -/

/-- What is read gives the level back; nothing is said of tasks that do not read lines. -/
def Task.Restores : Task → State → Prop
  | line nesting, state => ∀ node next, Reader.line nesting state = .found node next →
      Settles state.level (· ≠ state.level + 1) next
  | lines nesting, state => ∀ nodes next, Reader.lines nesting state = .found nodes next →
      nodes ≠ [] ∧ Settles (state.level - 1) (· ≤ state.level - 1) next
  | block nesting, state => ∀ body next, Reader.block nesting state = .found body next →
      body.children = [] ∧ next.level = state.level ∧
          Settles state.level (· ≠ state.level + 1) next ∨
        body.children ≠ [] ∧ Settles state.level (· ≤ state.level) next
  | _, _ => True

section

variable {nesting : Nat}

private theorem Task.Restores.settles {state next : State} {body : Body}
    (restores : Task.Restores (.block nesting) state)
    (found : Reader.block nesting state = .found body next) :
    Settles state.level (· ≠ state.level + 1) next := by
  rcases restores _ _ found with ⟨-, -, settles⟩ | ⟨-, settles⟩
  · exact settles
  · exact settles.mono fun count shallow same => by omega

private theorem line_restores {state : State}
    (body : ∀ {value : Phrase} {stop below : State},
      phrase nesting state.skipSpace = .found value stop → stop.endLine? = some below →
        Task.Restores (.block nesting) below) :
    Task.Restores (.line nesting) state := by
  intro node next found
  rw [line_eq] at found
  cases read : phrase nesting state.skipSpace with
  | absent | failed => simp [read, State.refuse] at found
  | found value stop =>
      simp only [read] at found
      cases ended : stop.endLine? with
      | none => simp [ended, State.refuse] at found
      | some below =>
          simp only [ended] at found
          obtain ⟨children, readBelow, -⟩ := Reply.map_eq_found_iff.mp found
          have kept : stop.level = state.skipSpace.level := level_of_phrase read
          have same : below.level = state.level := (level_of_endLine? ended).trans kept
          have settles := (body read ended).settles readBelow
          rwa [same] at settles

/-- How reading goes on behind a line of a block, by the number of tabs of the next line. -/
private theorem lines_eq_of_settles {state stop : State} {node : Node} {count : Nat}
    (read : line nesting state = .found node stop)
    (settles : Settles state.level (· ≠ state.level + 1) stop) (more : stop.atEnd = false)
    (tabs : stop.tabs? = some count) :
    lines nesting state =
      if (count : Int) < state.level then .found [node] { stop with level := state.level - 1 }
      else if (count : Int) = state.level then (lines nesting stop).map (node :: ·)
      else stop.refuse .excessiveIndent := by
  have notAtEnd : ¬ stop.atEnd = true := by simp [more]
  rw [lines_eq, read, Reply.bind, settles.skipped, if_neg notAtEnd, dedent_of_tabs tabs,
    nodent_of_tabs tabs, settles.level more]
  by_cases less : (count : Int) < state.level
  · rw [if_pos less, if_pos less]
  · rw [if_neg less, if_neg less]
    by_cases same : (count : Int) = state.level
    · rw [if_pos same, if_pos same]
    · rw [if_neg same, if_neg same]

private theorem lines_restores {state : State} (first : Task.Restores (.line nesting) state)
    (others : ∀ {node : Node} {stop next : State}, line nesting state = .found node stop →
      stop.skipBlankLines.atEnd = false →
      stop.skipBlankLines.dedent = .absent stop.skipBlankLines →
      stop.skipBlankLines.nodent = .found () next → Task.Restores (.lines nesting) next) :
    Task.Restores (.lines nesting) state := by
  intro nodes last found
  have start := found
  rw [lines_eq] at start
  obtain ⟨node, stop, read, finished⟩ := Reply.bind_eq_found_iff.mp start
  have settles := first _ _ read
  have further := @others node stop
  rw [settles.skipped] at finished further
  cases done : stop.atEnd with
  | true =>
      rw [if_pos done] at finished
      cases finished
      exact ⟨List.cons_ne_nil _ _, settles_of_atEnd settles.skipped done⟩
  | false =>
      have level := settles.level done
      obtain ⟨count, tabs, other⟩ := nextTabs_iff.mp (settles.tabs done)
      rw [lines_eq_of_settles read settles done tabs] at found
      by_cases less : (count : Int) < state.level
      · -- the next line belongs to a block further out
        rw [if_pos less] at found
        cases found
        refine ⟨List.cons_ne_nil _ _, ?_, fun _ => rfl, fun _ => nextTabs_iff.mpr ⟨count, tabs, ?_⟩⟩
        · rw [skipBlankLines_withLevel, settles.skipped]
        · exact Int.le_sub_one_of_lt less
      · rw [if_neg less] at found
        by_cases same : (count : Int) = state.level
        · rw [if_pos same] at found
          obtain ⟨rest, readRest, rfl⟩ := Reply.map_eq_found_iff.mp found
          have dedent : stop.dedent = .absent stop := by
            rw [dedent_of_tabs tabs, level, if_neg less]
          have nodent : stop.nodent = .found () stop := by
            rw [nodent_of_tabs tabs, level, if_pos same]
          obtain ⟨-, inner⟩ := further read done dedent nodent _ _ readRest
          rw [level] at inner
          exact ⟨List.cons_ne_nil _ _, inner⟩
        · rw [if_neg same] at found
          cases found

private theorem block_restores {state : State}
    (inner : ∀ {inside : State}, state.skipBlankLines.atEnd = false →
      state.skipBlankLines.indent = .found () inside → ∀ nodes next,
        linesWithin nesting inside = .found nodes next →
          nodes ≠ [] ∧ Settles (inside.level - 1) (· ≤ inside.level - 1) next) :
    Task.Restores (.block nesting) state := by
  intro body next found
  have level := level_skipBlankLines state
  have skipped := skipBlankLines_skipBlankLines state
  rw [block_eq] at found
  by_cases done : state.skipBlankLines.atEnd = true
  · rw [if_pos done] at found
    cases found
    exact .inl ⟨rfl, level, settles_of_atEnd skipped done⟩
  · rw [if_neg done] at found
    cases opened : state.skipBlankLines.indent with
    | failed => simp [opened] at found
    | absent =>
        rw [opened] at found
        cases found
        have tabs := tabs?_of_absent_indent opened
        rw [level] at tabs
        exact .inl ⟨rfl, level, skipped, fun _ => level, fun _ => nextTabs_iff.mpr tabs⟩
    | found _ inside =>
        simp only [opened] at found
        obtain ⟨children, read, rfl⟩ := Reply.map_eq_found_iff.mp found
        obtain ⟨some, settles⟩ := inner (by simpa using done) opened _ _ read
        have same : inside.level - 1 = state.level := by
          rw [level_of_indent opened, level, Int.add_sub_cancel]
        rw [same] at settles
        exact .inr ⟨some, settles⟩

private theorem Task.restores (task : Task) (state : State) : task.Restores state := by
  refine calls_induction (fun caller here inner => ?_) task state
  cases caller with
  | line nesting => exact line_restores fun read ended => inner _ _ (.lineBody read ended)
  | lines nesting =>
      exact lines_restores (inner _ _ .linesLine) fun read more closed stays =>
        inner _ _ (.linesNext read more closed stays)
  | block nesting =>
      cases nesting with
      | zero => exact block_restores fun _ _ _ _ found => by cases found
      | succ nesting =>
          exact block_restores fun more opened => inner _ _ (.blockLines more opened)
  | _ => exact trivial

/-! ## Lines that are too deep -/

/-- A line is refused as too deep only behind another line. -/
private theorem length_lt_of_line_excess {state stop : State} (ended : Ended state.rest)
    (refused : line nesting state = .failed (.problem .excessiveIndent) stop) :
    stop.rest.length < state.rest.length := by
  have skipped := state.length_skipSpace_le
  have explained := phrase_explained nesting (ended_skipSpace ended)
  rw [line_eq] at refused
  cases read : phrase nesting state.skipSpace with
  | absent => simp [read, State.refuse] at refused
  | failed failure last =>
      simp only [read] at refused
      cases refused
      rw [read] at explained
      cases explained with
      | failed shows => exact (shows _ rfl).elim
  | found value last =>
      simp only [read] at refused
      cases final : last.endLine? with
      | none => simp [final, State.refuse] at refused
      | some below =>
          simp only [final] at refused
          have failed := Reply.map_eq_failed_iff.mp refused
          have within := (Onward.of_failed ((Task.block nesting).onward below) failed).length_le
          have less := consumes_phrase read
          have shorter := State.length_lt_of_endLine? final
          omega

private theorem length_lt_of_lines_excess {state stop : State} (ended : Ended state.rest)
    (refused : lines nesting state = .failed (.problem .excessiveIndent) stop) :
    stop.rest.length < state.rest.length := by
  cases read : line nesting state with
  | absent => exact absurd read (Reply.Arrives.ne_absent ((Task.line nesting).arrives state) _)
  | failed failure last =>
      rw [lines_eq, read] at refused
      cases refused
      exact length_lt_of_line_excess ended read
  | found node last =>
      have settles := (Task.line nesting).restores state node last read
      have less := consumes_line nesting read
      cases done : last.atEnd with
      | true =>
          rw [lines_eq, read, Reply.bind, settles.skipped, if_pos done] at refused
          cases refused
      | false =>
          obtain ⟨count, tabs, -⟩ := nextTabs_iff.mp (settles.tabs done)
          rw [lines_eq_of_settles read settles done tabs] at refused
          split at refused
          · cases refused
          · split at refused
            · have failed := Reply.map_eq_failed_iff.mp refused
              have within := (Onward.of_failed ((Task.lines nesting).onward last) failed).length_le
              exact Nat.lt_of_le_of_lt within less
            · cases refused
              exact less

end

/-- A block without children leaves the level as it is, and it stands before the end of the text or
a line that is not one level deeper. A block with children ends at the end of the text or on the
level of its surroundings, before a line that is not deeper than they are. A line ends at the end of
the text or on its own level, before a line that is not one level deeper. So the checks behind a
line of a block never fail, and the block is refused there as too deep exactly if the next line is
at least two levels deeper. -/
theorem block_restores_level (nesting : Nat) (state : State) :
    (∀ body next, block nesting state = .found body next → body.children = [] →
      next.level = state.level ∧
        (next.atEnd = true ∨ next.NextTabs (· ≠ state.level + 1))) ∧
    (∀ body next, block nesting state = .found body next → body.children ≠ [] →
      next.atEnd = true ∨ next.level = state.level ∧ next.NextTabs (· ≤ state.level)) ∧
    (∀ node next, line nesting state = .found node next →
      next.atEnd = true ∨ next.level = state.level ∧ next.NextTabs (· ≠ state.level + 1)) ∧
    ∀ node stop, line nesting state = .found node stop → stop.skipBlankLines.atEnd = false →
      (∀ failure last, stop.skipBlankLines.dedent ≠ .failed failure last) ∧
      (∀ failure last, stop.skipBlankLines.nodent ≠ .failed failure last) ∧
      (Ended state.rest →
        (lines nesting state = stop.skipBlankLines.refuse .excessiveIndent ↔
          stop.skipBlankLines.NextTabs (state.level + 2 ≤ ·))) := by
  refine ⟨?_, ?_, ?_, ?_⟩
  · intro body next found empty
    rcases (Task.block nesting).restores state body next found with ⟨-, level, settles⟩ | ⟨some, -⟩
    · exact ⟨level, settles.cases.imp_right And.right⟩
    · exact absurd empty some
  · intro body next found some
    rcases (Task.block nesting).restores state body next found with ⟨empty, -⟩ | ⟨-, settles⟩
    · exact absurd empty some
    · exact settles.cases
  · intro node next found
    exact ((Task.line nesting).restores state node next found).cases
  · intro node stop read more
    have settles := (Task.line nesting).restores state node stop read
    rw [settles.skipped] at more ⊢
    obtain ⟨count, tabs, other⟩ := nextTabs_iff.mp (settles.tabs more)
    refine ⟨fun failure last => ?_, fun failure last => ?_, fun ended => ⟨fun refused => ?_, ?_⟩⟩
    · rw [dedent_of_tabs tabs]
      split <;> simp
    · rw [nodent_of_tabs tabs]
      split <;> simp
    · rw [lines_eq_of_settles read settles more tabs] at refused
      split at refused
      · cases refused
      · next notLess =>
        split at refused
        · -- such a failure of the lines below would be further on
          have endedStop : Ended stop.rest := (Onward.line read).ended ended
          have later := length_lt_of_lines_excess endedStop (Reply.map_eq_failed_iff.mp refused)
          exact absurd later (Nat.lt_irrefl _)
        · next notSame => exact nextTabs_iff.mpr ⟨count, tabs, by omega⟩
    · intro deep
      obtain ⟨count', tabs', deeper⟩ := nextTabs_iff.mp deep
      rw [lines_eq_of_settles read settles more tabs', if_neg (by omega), if_neg (by omega)]

/-- Two blocks end at once before the last line, and a line is two levels deeper than the one
above. -/
theorem block_restores_level_dedents :
    (∃ body next, block 2 ⟨"\ta\n\t\tb\n\t; x\n\t\tc\nd\n".toList, 3, 0⟩ = .found body next ∧
      body.children ≠ [] ∧ next.atEnd = false ∧ next.level = 0 ∧ next.NextTabs (· ≤ 0)) ∧
    lines 1 ⟨"a\n\n\t\tb\n".toList, 1, 0⟩ =
      State.refuse ⟨"\t\tb\n".toList, 3, 0⟩ .excessiveIndent := by
  have found : block 2 ⟨"\ta\n\t\tb\n\t; x\n\t\tc\nd\n".toList, 3, 0⟩ =
      .found ⟨[.expression (.symbol "a" 3) [.block [.expression (.symbol "b" 4) [] true 4,
        .expression (.symbol "c" 6) [] true 6] 4] true 3], 3⟩ ⟨"d\n".toList, 7, 0⟩ := by
    decide +kernel
  have read : line 1 ⟨"a\n\n\t\tb\n".toList, 1, 0⟩ =
      .found (.expression (.symbol "a" 1) [] true 1) ⟨"\t\tb\n".toList, 3, 0⟩ := by
    decide +kernel
  have same : State.skipBlankLines ⟨"\t\tb\n".toList, 3, 0⟩ = ⟨"\t\tb\n".toList, 3, 0⟩ := by
    decide +kernel
  have ended : Ended "a\n\n\t\tb\n".toList := by
    rintro c ⟨⟩
    rfl
  obtain ⟨-, withChildren, -, -⟩ := block_restores_level 2 ⟨_, 3, 0⟩
  obtain ⟨-, -, -, behind⟩ := block_restores_level 1 ⟨"a\n\n\t\tb\n".toList, 1, 0⟩
  obtain ⟨level, tabs⟩ := (withChildren _ _ found (List.cons_ne_nil _ _)).resolve_left (by decide)
  obtain ⟨-, -, excess⟩ := behind _ _ read (by rw [same]; rfl)
  rw [same] at excess
  refine ⟨⟨_, _, found, List.cons_ne_nil _ _, rfl, level, tabs⟩, (excess ended).mpr ?_⟩
  exact nextTabs_iff.mpr ⟨2, by decide, by decide⟩

end IndentLisp.Reader
