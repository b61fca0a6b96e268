import IndentLisp.Proofs.Evaluation.Conformance
import IndentLisp.Proofs.Evaluation.Layout
import IndentLisp.Proofs.Messages
import IndentLisp.Proofs.Program.WellFormed

/-!
# How programs end

A program that is executed with the standard symbols comes to a value or ends in an error of a known
kind. Only the line of the call that failed stands in front of an error, and each kind of error has
its cause in the program or in the settings.
-/

set_option autoImplicit false

namespace IndentLisp

variable {σ : Type}

/-! ## Kinds of failures -/

private theorem CallError.kind_of_made {named : Builtin → Prop} {error : CallError}
    (made : error.Made named) :
    (error.located = true ∧ (error.kind = .type ∨ error.kind = .zeroDivision)) ∨
      error.located = false ∧ error.kind = .overflow ∧ (named .divide ∨ named .multiply) := by
  cases error with
  | operands | repeatCount | nothingToSubtract | divideArguments => exact .inl ⟨rfl, .inl rfl⟩
  | divisionByZero | floatDivisionByZero => exact .inl ⟨rfl, .inr rfl⟩
  | intTooLarge | quotientTooLarge => exact .inr ⟨rfl, rfl, .inl made⟩
  | countTooLarge => exact .inr ⟨rfl, rfl, .inr made⟩
  | numeralTooLong | stackOverflow | host => exact made.elim

private theorem CallError.kind_of_unlocated {named : Builtin → Prop} {error : CallError}
    (made : error.Made named) (unlocated : error.located = false) :
    error.kind = .overflow ∧ (named .divide ∨ named .multiply) := by
  rcases kind_of_made made with ⟨located, -⟩ | ⟨-, overflow⟩
  · rw [located] at unlocated
    cases unlocated
  · exact overflow

namespace Fails

variable {tree : Node} {context : Context σ} {height : Nat} {machine : Machine σ}
  {last : Option Event} {error : RunError}

private theorem kind_mem (fails : Fails tree context height machine last error)
    (within : machine.depth + height ≤ context.interpreter.evaluationLimit) :
    error.kind ∈ [.failure .evaluation, .gas, .depth, .failure .overflow, .failure .value] := by
  cases fails with
  | call unlocated made =>
      rw [RunError.kind, (CallError.kind_of_unlocated made unlocated).1]
      decide
  | stackOverflow below => exact absurd below (Int.not_lt.mpr within)
  | failedCall | notCallable | numeralTooLong | gasExhausted | depthExceeded =>
      simp [RunError.kind, CallError.kind]

/-- An error that the parts of a tree within the limit can end in is that of the execution. -/
private theorem ofExecution_eq (fails : Fails tree context height machine last error)
    (within : machine.depth + height ≤ context.interpreter.evaluationLimit) :
    error.ofExecution = error := by
  have kinds := fails.kind_mem within
  cases error with
  | call reason =>
      have other : ¬ reason.kind = .recursion := by
        intro isKind
        simp [RunError.kind, isKind] at kinds
      exact if_neg other
  | failedCall | notCallable | unknownKind | gasExhausted | depthExceeded | noSymbols => rfl

/-- The line of the call that failed is named once, at the beginning of the message. -/
private theorem message_eq (fails : Fails tree context height machine last error)
    (isKind : error.kind = .failure .evaluation) :
    ∃ line text, tree.HasExpression line ∧
      error.message = "line " ++ Numeral.text line ++ ": " ++ text ∧ ¬ NamesLine text := by
  cases fails with
  | @failedCall line reason inside located made =>
      refine ⟨line, reason.message, inside, RunError.message_failedCall line reason, ?_⟩
      apply CallError.not_namesLine
      rintro kind text rfl
      exact made
  | @notCallable line symbol inside named =>
      refine ⟨line, _, inside, RunError.message_notCallable line symbol, ?_⟩
      apply not_namesLine_of_name
      cases symbol with
      | none => decide
      | some name =>
          intro space
          have valid := (Reader.isSymbolName_iff.mp (named name rfl)).2.2 ' ' space
          cases valid
  | call unlocated made =>
      rw [RunError.kind, (CallError.kind_of_unlocated made unlocated).1] at isKind
      cases isKind
  | numeralTooLong | stackOverflow | gasExhausted | depthExceeded => cases isKind

private theorem gas_isSome (fails : Fails tree context height machine last error)
    (isKind : error.kind = .gas) : machine.gas.isSome = true := by
  cases fails with
  | gasExhausted budget => exact budget
  | failedCall | notCallable | call | numeralTooLong | stackOverflow | depthExceeded => cases isKind

private theorem exists_limit (fails : Fails tree context height machine last error)
    (isKind : error.kind = .depth) :
    ∃ limit, context.maxDepth = some limit ∧ limit < machine.depth + height := by
  cases fails with
  | depthExceeded limited below => exact ⟨_, limited, below⟩
  | failedCall | notCallable | call | numeralTooLong | stackOverflow | gasExhausted => cases isKind

private theorem exists_longInteger (fails : Fails tree context height machine last error)
    (isKind : error.kind = .failure .value) :
    ∃ arguments, last = some (.called (.builtin .print) arguments) ∧
      ∃ number ∈ Value.integersOf arguments,
        Numeral.digitLimit < (Nat.toDigits 10 number.natAbs).length := by
  cases fails with
  | @numeralTooLong arguments number isLast member long =>
      refine ⟨arguments, isLast, number, member, Nat.not_le.mp fun short => ?_⟩
      rw [(Numeral.fits_iff_length_le number).mpr short] at long
      cases long
  | call unlocated made =>
      rw [RunError.kind, (CallError.kind_of_unlocated made unlocated).1] at isKind
      cases isKind
  | failedCall | notCallable | stackOverflow | gasExhausted | depthExceeded => cases isKind

private theorem names_of_overflow (fails : Fails tree context height machine last error)
    (isKind : error.kind = .failure .overflow) : tree.Names .divide ∨ tree.Names .multiply := by
  cases fails with
  | call unlocated made => exact (CallError.kind_of_unlocated made unlocated).2
  | failedCall | notCallable | numeralTooLong | stackOverflow | gasExhausted | depthExceeded =>
      cases isKind

end Fails

/-! ## Events without floating-point numbers -/

private theorem Event.hasFloat_eq_false {named : Builtin → Prop} {event : Event}
    (made : event.Made named) (undivided : ¬ named .divide) : event.hasFloat = false := by
  cases event with
  | valued value =>
      obtain ⟨height, isMade⟩ := made
      exact isMade.hasFloat_eq_false undivided
  | called function arguments =>
      obtain ⟨height, isMade, areMade⟩ := made
      have none := Value.anyFloat_eq_false fun argument member =>
        (areMade argument member).hasFloat_eq_false undivided
      rw [Event.hasFloat, isMade.hasFloat_eq_false undivided, none, Bool.or_false]

/-- Where a run comes to a value, that is its last event. -/
private theorem getLast?_events {context : Context σ} {node : Node} {machine after : Machine σ}
    {value : Value} (found : eval context node machine = (.ok value, after)) :
    (events context node machine).getLast? = some (.valued value) := by
  have last (inside : Machine σ → List Event) :
      (thenValued (eval context node) inside machine).getLast? = some (.valued value) := by
    rw [thenValued, found]
    exact List.getLast?_concat
  cases node <;> exact last _

/-! ## Executions -/

/-- A program that was read is executed with the standard symbols and within the limit on its
height. It comes to a value or ends in an error of one of these kinds; the errors of types and of
division by zero are not among them, because a call that fails in that way is reported with its
line. Only this line stands in front, however deep the call is. The budget and the depth are at
fault only if they are limited, and a value only if it is printed and contains an integer with too
many digits. Without the symbol for division there are no floating-point numbers, neither as values
nor in a call nor while its arguments are put together, and without the symbol for multiplication as
well nothing is too large. The events tell the whole run: where it comes to a value, that is the
last of them. -/
theorem execute_errors {interpreter : Interpreter} {source : String} {tree : Node}
    (parsed : parse interpreter.readingLimit source = .ok tree)
    (within : tree.height ≤ interpreter.evaluationLimit) (settings : Settings)
    (standard : settings.symbols = some []) (host : Host σ) (effects : Effects σ) :
    (∀ error, (execute interpreter settings host tree effects).1 = .error error →
      error.kind ∈ [.failure .evaluation, .gas, .depth, .failure .overflow, .failure .value] ∧
      (error.kind = .failure .evaluation → ∃ head tail lineForm line text,
        .expression head tail lineForm line ∈ tree.preorder ∧
        error.message = "line " ++ Numeral.text line ++ ": " ++ text ∧ ¬ NamesLine text) ∧
      (error.kind = .gas → settings.maxGas.isSome = true) ∧
      (error.kind = .depth → settings.maxDepth.isSome = true) ∧
      (error.kind = .failure .value → ∃ arguments,
        (executionEvents interpreter settings host tree effects).getLast? =
          some (.called (.builtin .print) arguments) ∧
        ∃ number ∈ Value.integersOf arguments,
          Numeral.digitLimit < (Nat.toDigits 10 number.natAbs).length) ∧
      (error.kind = .failure .overflow →
        ∃ line, .symbol "/" line ∈ tree.preorder ∨ .symbol "*" line ∈ tree.preorder)) ∧
    (∀ value, (execute interpreter settings host tree effects).1 = .ok value →
      (executionEvents interpreter settings host tree effects).getLast? =
        some (.valued value)) ∧
    ((∀ line, .symbol "/" line ∉ tree.preorder) →
      ∀ event ∈ executionEvents interpreter settings host tree effects, event.hasFloat = false ∧
        ∀ function arguments count room value written,
          event = .called (.builtin function) arguments →
          function.call interpreter.functionText room (arguments.take count) =
            .ok (value, written) →
          value.hasFloat = false) := by
  obtain ⟨valid, -⟩ := Reader.isProgram_of_parse parsed
  have suits : IsStandard tree (settings.context interpreter host []) :=
    ⟨Node.readable_of_isProgram valid, rfl⟩
  have conforms := conforms_eval suits tree (List.Subset.refl _)
  generalize isStart : ({ effects with gas := settings.maxGas } : Machine σ) = start
  have held : start.depth + tree.height ≤ interpreter.evaluationLimit := by
    rw [← isStart]
    dsimp only
    omega
  have run : (execute interpreter settings host tree effects).1 =
      (eval (settings.context interpreter host []) tree start).1 := by
    unfold execute
    rw [standard, isStart]
    change
      (eval (settings.context interpreter host []) tree start).1.mapError RunError.ofExecution = _
    rcases ended : eval (settings.context interpreter host []) tree start with ⟨error | _, after⟩
    · exact congrArg Except.error ((conforms.error ended).ofExecution_eq held)
    · rfl
  have happens : executionEvents interpreter settings host tree effects =
      events (settings.context interpreter host []) tree start := by
    unfold executionEvents
    rw [standard, isStart]
  rw [run, happens]
  refine ⟨?_, fun value found => getLast?_events (Prod.ext found rfl), ?_⟩
  · intro error failed
    have fails := conforms.error (Prod.ext failed rfl)
    refine ⟨fails.kind_mem held, ?_, ?_, ?_, fails.exists_longInteger, ?_⟩
    · intro isKind
      obtain ⟨line, text, ⟨head, tail, lineForm, inside⟩, message⟩ := fails.message_eq isKind
      exact ⟨head, tail, lineForm, line, text, inside, message⟩
    · intro isKind
      have budget := fails.gas_isSome isKind
      rwa [← isStart] at budget
    · intro isKind
      obtain ⟨limit, limited, below⟩ := fails.exists_limit isKind
      cases unlimited : settings.maxDepth with
      | some => rfl
      | none =>
          -- Without a limit in the settings there is only the one that the tree stays within.
          have least : min (interpreter.evaluationLimit : Int)
              (settings.maxDepth.getD interpreter.evaluationLimit) = limit :=
            Option.some.inj limited
          rw [unlimited, Option.getD_none, Int.min_self] at least
          omega
    · intro isKind
      rcases fails.names_of_overflow isKind with ⟨line, divides⟩ | ⟨line, multiplies⟩
      · exact ⟨line, .inl divides⟩
      · exact ⟨line, .inr multiplies⟩
  · intro undivided event member
    have made := conforms.event event member
    have none : ¬ tree.Names .divide := fun ⟨line, divides⟩ => undivided line divides
    refine ⟨Event.hasFloat_eq_false made none, ?_⟩
    rintro function arguments count room value written rfl result
    obtain ⟨height, isMade, areMade⟩ := made
    cases isMade with
    | builtin isNamed =>
        have first : ∀ argument ∈ arguments.take count, argument.Made tree.Names height :=
          fun argument member => areMade argument (List.mem_of_mem_take member)
        have comes := Builtin.comes_call interpreter.functionText room isNamed first
        rw [result] at comes
        exact comes.hasFloat_eq_false none

theorem execute_errors_textSum :
    let failure : RunError := .failedCall 1 (.operands "+=" "int" "str")
    let interpreter : Interpreter := ⟨1, 3, fun _ => "f"⟩
    parse interpreter.readingLimit "+ 'a'" = .ok (textSum 1 true) ∧
      (textSum 1 true).height ≤ interpreter.evaluationLimit ∧
      (execute interpreter {} Host.idle (textSum 1 true) ⟨"", ()⟩).1 = .error failure ∧
      (∃ head tail lineForm line text,
        .expression head tail lineForm line ∈ (textSum 1 true).preorder ∧
        failure.message = "line " ++ Numeral.text line ++ ": " ++ text ∧ ¬ NamesLine text) ∧
      ∀ event ∈ executionEvents interpreter {} Host.idle (textSum 1 true) ⟨"", ()⟩,
        event.hasFloat = false := by
  intro failure interpreter
  have parsed : parse interpreter.readingLimit "+ 'a'" = .ok (textSum 1 true) := parse_textSum
  have within : (textSum 1 true).height ≤ interpreter.evaluationLimit := by decide
  have failed : (execute interpreter {} Host.idle (textSum 1 true) ⟨"", ()⟩).1 =
      .error failure := rfl
  obtain ⟨errors, -, floats⟩ := execute_errors parsed within {} rfl Host.idle ⟨"", ()⟩
  have undivided : ∀ line, .symbol "/" line ∉ (textSum 1 true).preorder := by
    intro line member
    simp [textSum, Node.preorder, Node.preorderList] at member
  exact ⟨parsed, within, failed, (errors failure failed).2.1 rfl,
    fun event member => (floats undivided event member).1⟩

end IndentLisp
