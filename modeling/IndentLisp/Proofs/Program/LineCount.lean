import IndentLisp.Proofs.Program.Refusal
import IndentLisp.Proofs.Reader.Contract

/-!
# Counted lines

Whatever is called, the line goes on by as many as there are line ends in the text that has been
passed, and reading stops between a carriage return and its line feed only where it started there.
So all through the reading of a program the line tells how many line ends lie before the place, and
a diagnostic is on a line of the text.
-/

set_option autoImplicit false

namespace IndentLisp

open Reader

namespace Reader

/-- The state stands at a place of the source text, not between a carriage return and its line feed,
and its line is one more than the line ends before that place. -/
def Counted (source : String) (state : State) : Prop :=
  ∃ cursor, cursor ≤ (terminated source.toList).length ∧
    state.rest = (terminated source.toList).drop cursor ∧
    state.line = 1 + lineEnds ((terminated source.toList).take cursor) ∧
    Joins ((terminated source.toList).take cursor) ((terminated source.toList).drop cursor)

private theorem Counted.of_onward {source : String} {state : State}
    (onward : Onward (.start source) state) : Counted source state := by
  obtain ⟨text, passes⟩ := onward
  have split : terminated source.toList = text ++ state.rest := passes.rest
  have before : (terminated source.toList).take text.length = text := by rw [split, List.take_left]
  have behind : (terminated source.toList).drop text.length = state.rest := by
    rw [split, List.drop_left]
  refine ⟨text.length, ?_, behind.symm, ?_, ?_⟩
  · rw [split, List.length_append]
    exact Nat.le_add_right _ _
  · rw [before]
    exact passes.line
  · rw [before, behind]
    exact passes.joins

private theorem Passes.line_le_of_start {source : String} {text : List Char} {stop : State}
    (passes : Passes (.start source) text stop) :
    stop.line ≤ 1 + lineEnds (terminated source.toList) := by
  have split : terminated source.toList = text ++ stop.rest := passes.rest
  have line : stop.line = 1 + lineEnds text := passes.line
  rw [line, split, lineEnds_append passes.joins]
  omega

private theorem line_le_of_parse {nesting : Nat} {source : String} {diagnostic : Diagnostic}
    (refused : parse nesting source = .error (.diagnosed diagnostic)) :
    diagnostic.line ≤ 1 + lineEnds (terminated source.toList) := by
  obtain ⟨text, stop, failure, passes, same, -⟩ := parse_refusedBehind refused
  cases failure with
  | numeralTooLong => cases same
  | problem cause =>
      cases same
      exact passes.line_le_of_start

end Reader

/-- At every place of a text, whatever is called counts the line ends of what it passes, and it does
not stop between a carriage return and its line feed unless it stays where it is. So while a program
is read, the line is one more than the line ends before the place, wherever something is called,
where it is done and where reading ends; and a diagnostic is on the first line or further down, and
not below the line behind the last line end. -/
theorem line_agrees_with_place :
    (∀ probe : Probe, probe.cursor ≤ probe.text.length → ∀ task : Task,
      let later := probe.afterTask task
      later.state = task.place probe.state ∧ later.cursor ≤ probe.text.length ∧
        later.line = probe.line + lineEnds (probe.text.extract probe.cursor later.cursor) ∧
        (later.cursor = probe.cursor ∨
          Joins (probe.text.take later.cursor) (probe.text.drop later.cursor))) ∧
    (∀ {nesting : Nat} {source : String} {task : Task} {state : State},
      During nesting source task state →
        Counted source state ∧ Counted source (task.place state)) ∧
    (∀ (nesting : Nat) (source : String), Counted source (program nesting (.start source)).stop) ∧
    ∀ {nesting : Nat} {source : String} {diagnostic : Diagnostic},
      parse nesting source = .error (.diagnosed diagnostic) →
        1 ≤ diagnostic.line ∧ diagnostic.line ≤ 1 + lineEnds (terminated source.toList) := by
  refine ⟨fun probe inside task => ?_, ?_, fun nesting source => ?_, ?_⟩
  · obtain ⟨text, passes⟩ := task.onward probe.state
    have extract : probe.text.extract probe.cursor (probe.afterTask task).cursor = text :=
      Probe.extract_goTo passes
    refine ⟨Probe.state_goTo passes, Probe.cursor_goTo_le passes inside, ?_,
      Probe.joins_goTo passes⟩
    rw [extract]
    exact passes.line
  · intro nesting source task state during
    exact ⟨.of_onward during.onward, .of_onward (during.onward.trans (task.onward state))⟩
  · exact .of_onward (program_arrives nesting _).onward
  · intro nesting source diagnostic refused
    exact ⟨one_le_line_of_parse refused, line_le_of_parse refused⟩

/-- Blank lines from between a carriage return and its line feed on, and an escape that is refused
in a literal over three lines. -/
theorem line_agrees_with_place_escape :
    let probe : Probe := { text := "a\r\n; b\r\n c\n".toList, cursor := 2, line := 5, level := 0 }
    let source := "f 'a\r\nb' ;'\r\n\tg 'x\r\\q"
    probe.cursor ≤ probe.text.length ∧
      probe.afterTask .blankLines = { probe with cursor := 8, line := 7 } ∧
      (7 : Int) = 5 + lineEnds (probe.text.extract 2 8) ∧
      Joins (probe.text.take 8) (probe.text.drop 8) ∧
      parse 2 source = .error (.diagnosed ⟨.badEscape (some 'q'), 4⟩) ∧
      (1 : Int) ≤ 4 ∧ (4 : Int) ≤ 1 + lineEnds (terminated source.toList) := by
  intro probe source
  obtain ⟨agrees, -, -, diagnosed⟩ := line_agrees_with_place
  have inside : probe.cursor ≤ probe.text.length := by decide
  have later : probe.afterTask .blankLines = { probe with cursor := 8, line := 7 } := by cbv
  have stopped : program 2 (.start source) =
      .failed (.problem (.badEscape (some 'q'))) ⟨['\\', 'q', '\n'], 4, 1⟩ := by decide +kernel
  have refused : parse 2 source = .error (.diagnosed ⟨.badEscape (some 'q'), 4⟩) := by
    rw [parse, stopped]
    rfl
  obtain ⟨-, -, line, joins⟩ := agrees probe inside .blankLines
  rw [later] at line joins
  exact ⟨inside, later, line, joins.resolve_left (by decide), refused, diagnosed refused⟩

end IndentLisp
