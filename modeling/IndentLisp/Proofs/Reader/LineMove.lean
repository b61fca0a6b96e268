import IndentLisp.Proofs.Program.Listing
import IndentLisp.Proofs.Reader.Correspondence

/-!
# Moving lines

Where reading goes on does not depend on the number of the line. Two readings of one text on
different lines are in step, and they give the same trees and the same failures with their lines
moved.
-/

set_option autoImplicit false

namespace IndentLisp.Reader

open Grammar

private theorem eq_map_of_forall₂ {α β : Type} {values : α → β → Prop} {f : α → β} {left : List α}
    {right : List β} (same : List.Forall₂ values left right)
    (each : ∀ {value value'}, values value value' → value' = f value) : right = left.map f := by
  induction same with
  | nil => rfl
  | cons first _ ih => rw [List.map_cons, ih, each first]

/-- A change of line numbers which, from certain lines on, keeps all distances. -/
structure LineMove where
  moved : Int → Int
  later : Int → Prop
  later_succ {line : Int} : later line → later (line + 1)
  moved_succ {line : Int} : later line → moved (line + 1) = moved line + 1

namespace LineMove

variable {move : LineMove} {state state' : State}

/-- The second node is the first one on other lines. -/
def Nodes (move : LineMove) (node node' : Node) : Prop := node' = node.mapLines move.moved

theorem Nodes.headProblem?_eq {node node' : Node} (same : move.Nodes node node') :
    headProblem? node' = headProblem? node := by
  subst same
  cases node <;> rfl

theorem Nodes.block {children children' : List Node} (line : Int)
    (same : List.Forall₂ move.Nodes children children') :
    move.Nodes (.block children line) (.block children' (move.moved line)) := by
  rw [eq_map_of_forall₂ same id, Nodes, Node.mapLines_block]

theorem Nodes.expression {head head' : Node} {tail tail' : List Node} (lineForm : Bool)
    (line : Int) (first : move.Nodes head head') (same : List.Forall₂ move.Nodes tail tail') :
    move.Nodes (.expression head tail lineForm line)
      (.expression head' tail' lineForm (move.moved line)) := by
  rw [eq_map_of_forall₂ same id, first, Nodes, Node.mapLines_expression]

theorem Nodes.array {items items' : List Node} (line : Int)
    (same : List.Forall₂ move.Nodes items items') :
    move.Nodes (.array items line) (.array items' (move.moved line)) := by
  rw [eq_map_of_forall₂ same id, Nodes, Node.mapLines_array]

/-! ## One text on two lines -/

/-- The states differ in their lines only, and the line has been moved. -/
structure Shifts (move : LineMove) (state state' : State) : Prop where
  later : move.later state.line
  moved : state' = { state with line := move.moved state.line }

/-- From shifted states, the reader gives replies that differ in lines only. -/
abbrev InStep (move : LineMove) (reader : State → Reply Node) (state state' : State) : Prop :=
  Reply.Corresponds move.Shifts move.moved (fun _ => Eq) move.Nodes (reader state) (reader state')

namespace Shifts

theorem skipSpace (shifts : move.Shifts state state') :
    move.Shifts state.skipSpace state'.skipSpace := by
  obtain ⟨later, rfl⟩ := shifts
  exact ⟨later, rfl⟩

theorem endLine? (shifts : move.Shifts state state') :
    Option.Rel move.Shifts state.endLine? state'.endLine? := by
  obtain ⟨later, rfl⟩ := shifts
  rw [State.endLine?, State.endLine?]
  cases dropLineEnd? (dropComment state.rest) with
  | none => exact .none
  | some rest => exact .some ⟨move.later_succ later, by rw [move.moved_succ later]⟩

theorem skipBlankLines (shifts : move.Shifts state state') :
    move.Shifts state.skipBlankLines state'.skipBlankLines :=
  skipBlankLines_inStep (fun on => on.skipSpace.endLine?) .inl shifts

theorem take? (shifts : move.Shifts state state') (c : Char) :
    Option.Rel move.Shifts (state.take? c) (state'.take? c) := by
  obtain ⟨later, rfl⟩ := shifts
  obtain ⟨text, line, level⟩ := state
  cases text with
  | nil => exact .none
  | cons d rest =>
      rw [State.take?, State.take?]
      dsimp only
      split
      · exact .some ⟨later, rfl⟩
      · exact .none

private theorem readNumber (shifts : move.Shifts state state') :
    move.InStep readNumber state state' := by
  obtain ⟨later, rfl⟩ := shifts
  obtain ⟨text, line, level⟩ := state
  obtain ⟨digits, after, rfl, decimal, outside⟩ := exists_run Char.isDigit text
  rw [InStep, readNumber_append decimal outside, readNumber_append decimal outside]
  split
  · exact .absent ⟨later, rfl⟩
  · cases numberObstacle? after with
    | some c => exact .failed rfl rfl
    | none =>
        dsimp only
        split
        · exact .found rfl ⟨later, rfl⟩
        · exact .failed rfl rfl

private theorem readSymbol (shifts : move.Shifts state state') :
    move.InStep readSymbol state state' := by
  obtain ⟨later, rfl⟩ := shifts
  obtain ⟨text, line, level⟩ := state
  obtain ⟨name, after, rfl, letters, outside⟩ := exists_run (fun c => !endsSymbol c) text
  rw [InStep, readSymbol_append letters outside, readSymbol_append letters outside]
  split
  · exact .absent ⟨later, rfl⟩
  · exact .found rfl ⟨later, rfl⟩

private theorem readLiteral {line : Int} (later : move.later line) (level : Int)
    (text : List Char) :
    Reply.Corresponds move.Shifts move.moved (fun _ => Eq) Eq (readLiteral level text line)
      (readLiteral level text (move.moved line)) := by
  fun_induction Reader.readLiteral level text line with
  | case1 => exact .failed rfl rfl
  | case2 => exact .found rfl ⟨later, rfl⟩
  | case3 => exact .failed rfl rfl
  | case4 c rest line meant escape ih =>
      rw [Reader.readLiteral, escape]
      exact (ih later).map (congrArg _)
  | case5 c rest line unknown =>
      rw [Reader.readLiteral, unknown]
      exact .failed rfl rfl
  | case6 rest line ih =>
      rw [Reader.readLiteral, ← move.moved_succ later]
      exact (ih (move.later_succ later)).map fun same => by rw [same]
  | case7 c rest line noQuote lone noEscape noPair ih =>
      -- Any other character, which may be a line break of its own.
      have steps : (if isLineBreak c then move.moved line + 1 else move.moved line) =
          move.moved (if isLineBreak c then line + 1 else line) := by
        split
        · exact (move.moved_succ later).symm
        · rfl
      have still : move.later (if isLineBreak c then line + 1 else line) := by
        split
        · exact move.later_succ later
        · exact later
      rw [Reader.readLiteral, steps]
      · exact (ih still).map (congrArg _)
      all_goals assumption

private theorem readString (shifts : move.Shifts state state') :
    move.InStep readString state state' := by
  have opens := shifts.take? '\''
  obtain ⟨later, rfl⟩ := shifts
  rw [InStep, Reader.readString, Reader.readString]
  generalize State.take? _ '\'' = inside' at opens ⊢
  generalize State.take? _ '\'' = inside at opens ⊢
  cases opens with
  | none => exact .absent ⟨later, rfl⟩
  | @some inside inside' within =>
      obtain ⟨laterInside, rfl⟩ := within
      refine (readLiteral laterInside _ _).map fun same => ?_
      rw [same]
      rfl

theorem atom {reader : State → Reply Node}
    (token : reader ∈ [Reader.readNumber, Reader.readString, Reader.readSymbol])
    (shifts : move.Shifts state state') : move.InStep reader state state' :=
  atom_cases (motive := fun reader => move.InStep reader state state') token
    shifts.readNumber shifts.readString shifts.readSymbol

end Shifts

def shift (move : LineMove) : Correspondence where
  states := move.Shifts
  starts := move.Shifts
  moved := move.moved
  causes _ := Eq
  nodes := move.Nodes
  starts_of_states shifts := shifts
  lineMoved := by rintro _ _ ⟨later, rfl⟩; rfl
  sameLevel := by rintro _ _ ⟨later, rfl⟩; rfl
  withLevel := by rintro _ _ _ ⟨later, rfl⟩; exact ⟨later, rfl⟩
  sameEnd := by rintro _ _ ⟨later, rfl⟩; rfl
  sameTabs shifts := by
    have skipped := shifts.skipBlankLines.moved
    rw [skipped]
    rfl
  skipSpace := Shifts.skipSpace
  skipBlankLines := Shifts.skipBlankLines
  endLine shifts := shifts.skipSpace.endLine?
  bracket _ shifts := shifts.take? _
  atom token shifts := shifts.atom token
  sameProblem _ _ _ := rfl
  sameHeadProblem := Nodes.headProblem?_eq
  nodesBlock := Nodes.block
  nodesExpression := Nodes.expression
  nodesArray := Nodes.array

end LineMove

/-! ## Programs -/

namespace Correspondence

/-- Corresponding nodes and failures differ in their lines only. -/
structure MovesLines (both : Correspondence) : Prop where
  nodes {node node' : Node} : both.nodes node node' → node' = node.mapLines both.moved
  causes {line : Int} {failure failure' : Failure} :
    both.causes line failure failure' → failure' = failure

variable {both : Correspondence}

theorem MovesLines.program (moves : both.MovesLines) (nesting : Nat) {state state' : State}
    (ended : Ended state.rest) (level : state.level = -1) (step : both.starts state state') :
    (∃ children line stop stop', program nesting state = .found ⟨children, line⟩ stop ∧
      program nesting state' =
        .found ⟨children.map (Node.mapLines both.moved), both.moved line⟩ stop') ∨
    ∃ failure stop stop', program nesting state = .failed failure stop ∧
      program nesting state' = .failed failure stop' ∧ stop'.line = both.moved stop.line := by
  rcases (program_inStep nesting step).outcome with
    ⟨⟨children, line⟩, ⟨children', line'⟩, stop, stop', found, found', same, -⟩ |
    ⟨stop, _, absent, -⟩ |
    ⟨failure, _, stop, stop', failed, failed', same, line⟩
  · obtain rfl := eq_map_of_forall₂ same.children moves.nodes
    obtain rfl := same.line
    exact .inl ⟨children, line, stop, stop', found, found'⟩
  · exact absurd absent (program_ne_absent ended level stop)
  · obtain rfl := moves.causes same
    exact .inr ⟨_, stop, stop', failed, failed', line⟩

theorem atState_of_line {lines : Int → Int} {stop stop' : State} (failure : Failure)
    (line : stop'.line = lines stop.line) :
    failure.atState stop' = (failure.atState stop).mapLine lines := by
  cases failure with
  | problem =>
      rw [Failure.atState, Failure.atState, line]
      rfl
  | numeralTooLong => rfl

/-- Sources that are read in step have the same outcome, up to lines. -/
theorem MovesLines.parse_eq (moves : both.MovesLines) (nesting : Nat) {source source' : String}
    (step : both.starts (.start source) (.start source')) :
    parse nesting source' = moveLines both.moved (parse nesting source) := by
  rw [parse, parse]
  rcases moves.program nesting (ended_start source) rfl step with
    ⟨children, line, stop, stop', found, found'⟩ | ⟨failure, stop, stop', failed, failed', line⟩
  · rw [found, found']
    exact congrArg Except.ok (Node.mapLines_block _ _ _).symm
  · rw [failed, failed']
    exact congrArg Except.error (atState_of_line failure line)

end Correspondence

theorem LineMove.shift_movesLines (move : LineMove) : move.shift.MovesLines where
  nodes same := same
  causes same := same.symm

end IndentLisp.Reader
