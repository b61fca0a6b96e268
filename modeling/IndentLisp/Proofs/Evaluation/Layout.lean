import IndentLisp.Evaluation.Execute
import IndentLisp.Node.Lines
import IndentLisp.Proofs.Evaluation.Budget
import IndentLisp.Proofs.Messages
import IndentLisp.Proofs.RoundTrip

/-!
# Evaluation and layout

What an evaluation does depends on what its tree says and not on how the tree is written. Lines
come to light only in front of the errors of calls, and forms not at all. So a program may be
written anew without a change of what it does.
-/

set_option autoImplicit false

namespace IndentLisp

variable {σ α β : Type}

/-! ## Results up to lines -/

/-- Two results that differ at most in the line with which an error is reported. -/
inductive SameUpToLine : Except RunError α → Except RunError α → Prop where
  | value (value : α) : SameUpToLine (.ok value) (.ok value)
  | error (error : RunError) : SameUpToLine (.error error) (.error error)
  | failedCall (line line' : Int) (error : CallError) :
      SameUpToLine (.error (.failedCall line error)) (.error (.failedCall line' error))
  | notCallable (line line' : Int) (symbol : Option String) :
      SameUpToLine (.error (.notCallable line symbol)) (.error (.notCallable line' symbol))

/-- Two messages that differ at most in the number of the line they start with. -/
def SameUpToNumber (message message' : String) : Prop :=
  message = message' ∨ ∃ line line' text,
    message = "line " ++ Numeral.text line ++ ": " ++ text ∧
      message' = "line " ++ Numeral.text line' ++ ": " ++ text

namespace SameUpToLine

private theorem refl (result : Except RunError α) : SameUpToLine result result := by
  cases result with
  | error error => exact .error error
  | ok value => exact .value value

private theorem symm {result result' : Except RunError α} (same : SameUpToLine result result') :
    SameUpToLine result' result := by
  cases same with
  | value value => exact .value value
  | error error => exact .error error
  | failedCall line line' error => exact .failedCall line' line error
  | notCallable line line' symbol => exact .notCallable line' line symbol

private theorem trans {first second third : Except RunError α} (same : SameUpToLine first second)
    (same' : SameUpToLine second third) : SameUpToLine first third := by
  cases same with
  | value | error => exact same'
  | failedCall line line' error =>
      cases same' with
      | error => exact .failedCall line line' error
      | failedCall _ line'' => exact .failedCall line line'' error
  | notCallable line line' symbol =>
      cases same' with
      | error => exact .notCallable line line' symbol
      | notCallable _ line'' => exact .notCallable line line'' symbol

/-- The error of a call does not depend on the line of the call, but for its report. -/
private theorem ofCall (line line' : Int) (error : CallError) :
    SameUpToLine (α := α) (.error (.ofCall line error)) (.error (.ofCall line' error)) := by
  unfold RunError.ofCall
  split
  · exact .failedCall line line' error
  · exact .error (.call error)

private theorem message {error error' : RunError}
    (same : SameUpToLine (α := α) (.error error) (.error error')) :
    SameUpToNumber error.message error'.message := by
  cases same with
  | error => exact .inl rfl
  | failedCall line line' failure =>
      exact .inr ⟨line, line', failure.message, RunError.message_failedCall line failure,
        RunError.message_failedCall line' failure⟩
  | notCallable line line' symbol =>
      exact .inr ⟨line, line', symbol.getD "expression" ++ " is not callable",
        RunError.message_notCallable line symbol, RunError.message_notCallable line' symbol⟩

end SameUpToLine

/-! ## Runs up to lines -/

/-- Two runs that, from every machine, lead to the same machine and to the same result up to
lines. -/
def Alike (run run' : Run σ α) : Prop :=
  ∀ machine, SameUpToLine (run machine).1 (run' machine).1 ∧ (run machine).2 = (run' machine).2

namespace Alike

private theorem refl (run : Run σ α) : Alike run run := fun machine => ⟨.refl (run machine).1, rfl⟩

private theorem symm {run run' : Run σ α} (alike : Alike run run') : Alike run' run :=
  fun machine => ⟨(alike machine).1.symm, (alike machine).2.symm⟩

private theorem trans {first second third : Run σ α} (alike : Alike first second)
    (alike' : Alike second third) : Alike first third :=
  fun machine =>
    ⟨(alike machine).1.trans (alike' machine).1, (alike machine).2.trans (alike' machine).2⟩

private theorem bind {first first' : Run σ α} {next next' : α → Run σ β}
    (alike : Alike first first') (alike' : ∀ value, Alike (next value) (next' value)) :
    Alike (first >>= next) (first' >>= next') := by
  intro machine
  have same := alike machine
  rw [run_bind, run_bind]
  generalize first machine = outcome, first' machine = outcome' at same
  obtain ⟨result, after⟩ := outcome
  obtain ⟨result', after'⟩ := outcome'
  obtain ⟨sameResult, rfl⟩ : SameUpToLine result result' ∧ after = after' := same
  cases sameResult with
  | value value => exact alike' value after
  | error error => exact ⟨.error error, rfl⟩
  | failedCall line line' error => exact ⟨.failedCall line line' error, rfl⟩
  | notCallable line line' symbol => exact ⟨.notCallable line line' symbol, rfl⟩

private theorem metered {visit visit' : Run σ α} (alike : Alike visit visit')
    (context : Context σ) :
    Alike (metered context visit) (IndentLisp.metered context visit') := by
  intro machine
  unfold IndentLisp.metered
  dsimp only
  split
  · exact ⟨.error _, rfl⟩
  · split
    · exact ⟨.error _, rfl⟩
    · have inside :=
        alike { machine with gas := machine.gas.map (· - 1), depth := machine.depth + 1 }
      exact ⟨inside.1, congrArg Machine.leave inside.2⟩

/-- Of the head of an expression, a call looks only at its name. -/
private theorem apply (context : Context σ) {head head' : Node}
    (sameName : head.symbolName? = head'.symbolName?) (line line' : Int) (function : Value)
    (arguments : List Value) :
    Alike (apply context head line function arguments)
      (IndentLisp.apply context head' line' function arguments) := by
  intro machine
  unfold IndentLisp.apply call
  cases function with
  | builtin builtin =>
      dsimp only
      generalize context.room machine.depth = room
      cases builtin.call context.interpreter.functionText room arguments with
      | ok outcome => exact ⟨.value outcome.1, rfl⟩
      | error error => exact ⟨.ofCall line line' error, rfl⟩
  | host name =>
      dsimp only
      cases (context.host.call name arguments machine.toEffects).1 with
      | ok value => exact ⟨.value value, rfl⟩
      | error error => exact ⟨.ofCall line line' error, rfl⟩
  | nothing | bool | int | float | text | list =>
      dsimp only
      rw [sameName]
      exact ⟨.notCallable line line' _, rfl⟩

end Alike

/-! ## Evaluations -/

private theorem Node.symbolName?_mapLayout (lines : Int → Int) (forms : Bool → Bool) (node : Node) :
    (node.mapLayout lines forms).symbolName? = node.symbolName? := by
  cases node <;> rfl

section

variable (context : Context σ) (lines : Int → Int) (forms : Bool → Bool)

mutual

private theorem alike_eval (node : Node) :
    Alike (eval context node) (eval context (node.mapLayout lines forms)) := by
  cases node with
  | block children line => exact (alike_evalLast children .nothing).metered context
  | expression head tail lineForm line =>
      have call (function : Value) (arguments : List Value) :
          Alike (apply context head line function arguments)
            (apply context (head.mapLayout lines forms) (lines line) function arguments) :=
        .apply context (head.symbolName?_mapLayout lines forms).symm line (lines line) function
          arguments
      have arguments (function : Value) := (alike_evalAll tail).bind (call function)
      exact ((alike_eval head).bind arguments).metered context
  | array items line =>
      have values := (alike_evalAll items).bind fun values =>
        .refl (pure (Value.list values) : Run σ Value)
      exact values.metered context
  | symbol | number | string | unknown => exact .refl _

private theorem alike_evalAll (nodes : List Node) :
    Alike (evalAll context nodes) (evalAll context (Node.mapLayoutList lines forms nodes)) := by
  cases nodes with
  | nil => exact .refl _
  | cons node nodes =>
      have others (value : Value) := (alike_evalAll nodes).bind fun values =>
        .refl (pure (value :: values) : Run σ (List Value))
      exact (alike_eval node).bind others

private theorem alike_evalLast (nodes : List Node) (value : Value) :
    Alike (evalLast context value nodes)
      (evalLast context value (Node.mapLayoutList lines forms nodes)) := by
  cases nodes with
  | nil => exact .refl _
  | cons node nodes => exact (alike_eval node).bind (alike_evalLast nodes)

end

end

/-- Two trees that say the same are evaluated alike. -/
private theorem alike_of_bare_eq {left right : Node} (same : left.bare = right.bare)
    (context : Context σ) : Alike (eval context left) (eval context right) := by
  have bared (node : Node) : Alike (eval context node) (eval context node.bare) :=
    alike_eval context (fun _ => 0) (fun _ => false) node
  exact (bared left).trans (same ▸ (bared right).symm)

private theorem SameUpToLine.ofExecution {result result' : Except RunError α}
    (same : SameUpToLine result result') :
    SameUpToLine (result.mapError .ofExecution) (result'.mapError .ofExecution) := by
  cases same with
  | value value => exact .value value
  | error error => exact .error _
  | failedCall line line' error => exact .failedCall line line' error
  | notCallable line line' symbol => exact .notCallable line line' symbol

private theorem execute_alike {left right : Node} (same : left.bare = right.bare)
    (interpreter : Interpreter) (settings : Settings) (host : Host σ) (effects : Effects σ) :
    SameUpToLine (execute interpreter settings host left effects).1
        (execute interpreter settings host right effects).1 ∧
      (execute interpreter settings host left effects).2 =
        (execute interpreter settings host right effects).2 := by
  unfold execute
  cases settings.symbols with
  | none => exact ⟨.error _, rfl⟩
  | some symbols =>
      have alike := alike_of_bare_eq same (settings.context interpreter host symbols)
        { effects with gas := settings.maxGas }
      exact ⟨alike.1.ofExecution, congrArg Machine.toEffects alike.2⟩

/-- What is read from the written form of a program says what the program says. -/
private theorem exists_bare_eq_of_parse {nesting : Nat} {source : String} {tree : Node}
    (parsed : parse nesting source = .ok tree) :
    ∃ text again, tree.format = .ok text ∧ parse nesting text = .ok again ∧
      again.bare = tree.bare := by
  obtain ⟨valid, within⟩ := Reader.isProgram_of_parse parsed
  obtain ⟨text, written, read⟩ := parse_format valid within
  refine ⟨text, tree.renumber, written, read, ?_⟩
  have same := congrArg Node.bare (tree.onLine_renumber 0)
  rwa [Node.onLine, Node.mapLines, Node.bare_mapLayout, Node.onLine, Node.mapLines,
    Node.bare_mapLayout] at same

/-- Trees that differ only in their layout information are evaluated alike: to the same value or to
the same error, with the same effects, gas and depth left behind. Only the line in front of the
error of a call may differ. So on the same interpreter, a parsed program and what is read from its
written form do the same. -/
theorem eval_layout :
    (∀ {left right : Node}, left.bare = right.bare →
      (∀ (context : Context σ) (machine : Machine σ),
        SameUpToLine (eval context left machine).1 (eval context right machine).1 ∧
          (eval context left machine).2 = (eval context right machine).2) ∧
      ∀ (interpreter : Interpreter) (settings : Settings) (host : Host σ) (effects : Effects σ),
        SameUpToLine (execute interpreter settings host left effects).1
            (execute interpreter settings host right effects).1 ∧
          (execute interpreter settings host left effects).2 =
            (execute interpreter settings host right effects).2) ∧
    (∀ {error error' : RunError}, SameUpToLine (α := Value) (.error error) (.error error') →
      SameUpToNumber error.message error'.message) ∧
    ∀ {nesting : Nat} {source : String} {tree : Node}, parse nesting source = .ok tree →
      ∃ text again, tree.format = .ok text ∧ parse nesting text = .ok again ∧
        ∀ (interpreter : Interpreter) (settings : Settings) (host : Host σ) (effects : Effects σ),
          SameUpToLine (execute interpreter settings host again effects).1
              (execute interpreter settings host tree effects).1 ∧
            (execute interpreter settings host again effects).2 =
              (execute interpreter settings host tree effects).2 := by
  refine ⟨fun same => ⟨fun context => alike_of_bare_eq same context, execute_alike same⟩,
    SameUpToLine.message, ?_⟩
  intro nesting source tree parsed
  obtain ⟨text, again, written, read, same⟩ := exists_bare_eq_of_parse parsed
  exact ⟨text, again, written, read, execute_alike same⟩

/-- A program that adds a text to zero, on the given line and in the given form. -/
def textSum (line : Int) (lineForm : Bool) : Node :=
  .block [.expression (.symbol "+" line) [.string "a" line] lineForm line] line

theorem parse_textSum : parse 1 "+ 'a'" = .ok (textSum 1 true) := by
  obtain ⟨text, written, read⟩ := @parse_format 1 (textSum 1 true) (by decide) (by decide)
  have format : (textSum 1 true).format = .ok "+ 'a'" := rfl
  obtain rfl := Except.ok.inj (format.symm.trans written)
  exact read

theorem eval_layout_textSum :
    let machine : Machine Unit := ⟨⟨"", ()⟩, none, 0⟩
    let failure (line : Int) : Except RunError Value :=
      .error (.failedCall line (.operands "+=" "int" "str"))
    (textSum 3 false).bare = (textSum 1 true).bare ∧
      (eval standardContext (textSum 3 false) machine).1 = failure 3 ∧
      (eval standardContext (textSum 1 true) machine).1 = failure 1 ∧
      SameUpToLine (failure 3) (failure 1) ∧
      SameUpToNumber (RunError.failedCall 3 (.operands "+=" "int" "str")).message
        (RunError.failedCall 1 (.operands "+=" "int" "str")).message ∧
      parse 1 "+ 'a'" = .ok (textSum 1 true) ∧
      ∃ text again, (textSum 1 true).format = .ok text ∧ parse 1 text = .ok again ∧
        SameUpToLine (execute standardContext.interpreter {} .idle again ⟨"", ()⟩).1
          (execute standardContext.interpreter {} .idle (textSum 1 true) ⟨"", ()⟩).1 := by
  intro machine failure
  have same : (textSum 3 false).bare = (textSum 1 true).bare := rfl
  have low : (eval standardContext (textSum 3 false) machine).1 = failure 3 := rfl
  have high : (eval standardContext (textSum 1 true) machine).1 = failure 1 := rfl
  have alike := ((eval_layout.1 same).1 standardContext machine).1
  rw [low, high] at alike
  obtain ⟨text, again, written, read, agree⟩ := (@eval_layout Unit).2.2 parse_textSum
  exact ⟨same, low, high, alike, (@eval_layout Unit).2.1 alike, parse_textSum, text, again, written,
    read, (agree standardContext.interpreter {} .idle ⟨"", ()⟩).1⟩

end IndentLisp
