import IndentLisp.Evaluation.Execute
import IndentLisp.Evaluation.Term
import IndentLisp.Proofs.Evaluation.DepthLimit
import IndentLisp.Proofs.Layout.Item
import IndentLisp.Proofs.Program.Indentation

/-!
# Exact arithmetic

A program that prints an arithmetic term is read as the tree of the term and writes the integer that
the term stands for, whatever integers come up on the way.
-/

set_option autoImplicit false

namespace IndentLisp

open Grammar Reader

/-! ## Programs of one line -/

/-- A text that is a phrase is a program of one line, in one block. -/
private theorem parse_phrase {text : List Char} {phrase : Phrase} {nesting : Nat}
    (written : WrittenPhrase 1 text phrase ['\n']) (within : phrase.nesting < nesting) :
    parse nesting (String.ofList text) = .ok (.block [phrase.toNode] 1) := by
  have read := readPhrase_of_written written (endsPhrase_feed []) (Nat.le_of_lt within) (-1)
  let line : SourceLine := ⟨0, false, text, phrase, nesting, _, read, rfl⟩
  have some : [line] ≠ [] := List.cons_ne_nil line []
  have body : text ++ ['\n'] = SourceLine.textOf [line] := by
    simp [SourceLine.textOf, SourceLine.text, SourceLine.indentation, line]
  have start : State.start (String.ofList text) =
      State.start (String.ofList (SourceLine.textOf [line])) := by
    rw [SourceLine.start_textOf some, State.start, String.toList_ofList,
      SourceLine.terminated_of_concat some body]
  have well : SourceLine.WellIndented [line] :=
    ⟨List.forall_mem_singleton.mpr rfl, Nat.le_refl 0, trivial⟩
  have fits : SourceLine.Fits nesting [line] :=
    List.forall_mem_singleton.mpr ((Nat.zero_add phrase.nesting).symm ▸ within)
  have listed : (Forest.cons (phrase.shiftLines 0) .empty .empty).preorder 0 =
      SourceLine.placed 0 [line] := rfl
  have whole := SourceLine.parse_of_listed some well fits listed
  rw [phrase.shiftLines_zero] at whole
  rw [parse, start, ← parse, whole]
  rfl

namespace Term

/-! ## Reading terms -/

private theorem applied_inside {operator : String} {operands : List Char}
    (name : Node.isSymbolName operator.toList = true)
    (inside : ∀ c ∈ operands, isLineBreak c = false) :
    ∀ c ∈ applied operator operands, isLineBreak c = false := by
  simp only [applied, List.forall_mem_append, List.forall_mem_cons]
  have noBreak := fun c => @Node.not_isLineBreak_of_isSymbolName _ name c
  exact ⟨⟨⟨rfl, noBreak⟩, inside⟩, rfl, List.forall_mem_nil _⟩

private theorem operands_cons_inside {text rest : List Char}
    (first : ∀ c ∈ text, isLineBreak c = false) (others : ∀ c ∈ rest, isLineBreak c = false) :
    ∀ c ∈ ' ' :: text ++ rest, isLineBreak c = false := by
  simp only [List.forall_mem_append, List.forall_mem_cons]
  exact ⟨⟨rfl, first⟩, others⟩

mutual

/-- A written term stands on one line. -/
private theorem text_inside (term : Term) : ∀ c ∈ term.text, isLineBreak c = false := by
  cases term with
  | number written => exact fun c member => not_isLineBreak_of_isDigit (written.decimal c member)
  | sum terms => exact applied_inside (by decide) (operands_inside terms)
  | product terms => exact applied_inside (by decide) (operands_inside terms)
  | difference first others =>
      have all := operands_cons_inside (text_inside first) (operands_inside others)
      exact applied_inside (by decide) all

private theorem operands_inside (terms : List Term) :
    ∀ c ∈ operands terms, isLineBreak c = false := by
  cases terms with
  | nil => exact nofun
  | cons term terms => exact operands_cons_inside (text_inside term) (operands_inside terms)

end

private theorem startsWith_operands (terms : List Term) (after : List Char) :
    StartsWith endsNumber (operands terms ++ ')' :: after) := by
  cases terms with
  | nil => exact ⟨')', after, rfl, rfl⟩
  | cons term terms => exact startsWith_space _

private theorem item_applied {operator : String} (name : Node.isSymbolName operator.toList = true)
    {operands : List Char} {nodes : List Node} {after : List Char}
    (follows : StartsWith endsNumber (operands ++ ')' :: after))
    (items : Items 1 operands nodes (')' :: after)) :
    Item 1 (applied operator operands) (.expression (.symbol operator 1) nodes false 1) after := by
  have head : Item 1 operator.toList (.symbol (String.ofList operator.toList) 1)
      (operands ++ ')' :: after) := .symbol name follows.endsSymbol
  rw [String.ofList_toList] at head
  exact .parenthesised_inside rfl head (fun c => Node.not_isLineBreak_of_isSymbolName name) items

mutual

/-- A written term is an item, and its node is the tree of the term. -/
private theorem item_text (term : Term) {after : List Char}
    (follows : StartsWith endsNumber after) :
    Item 1 term.text term.node after := by
  cases term with
  | number written => exact .number written.nonempty written.decimal written.short follows
  | sum terms =>
      exact item_applied (by decide) (startsWith_operands terms after) (items_operands terms after)
  | product terms =>
      exact item_applied (by decide) (startsWith_operands terms after) (items_operands terms after)
  | difference first others =>
      have item := item_text first (startsWith_operands others after)
      have items : Items 1 (' ' :: first.text ++ operands others) (first.node :: nodes others)
          (')' :: after) :=
        .space (.cons_inside item (text_inside first) (items_operands others after))
      exact item_applied (by decide) (startsWith_space _) items

private theorem items_operands (terms : List Term) (after : List Char) :
    Items 1 (operands terms) (nodes terms) (')' :: after) := by
  cases terms with
  | nil => exact .nil .nil
  | cons term terms =>
      have item := item_text term (startsWith_operands terms after)
      exact .space (.cons_inside item (text_inside term) (items_operands terms after))

end

/-- A program that prints a term is read as the tree of this program. -/
private theorem parse_source {term : Term} {nesting : Nat}
    (within : term.program.nesting ≤ nesting) :
    parse nesting term.source = .ok term.program := by
  have whole : term.source = String.ofList ("печатать".toList ++ (' ' :: term.text ++ [])) := by
    have split : "печатать".toList ++ (' ' :: term.text ++ []) =
        "печатать ".toList ++ term.text := congrArg ("печатать ".toList ++ ·) term.text.append_nil
    unfold source
    rw [split, String.ofList_append, String.ofList_toList]
  have item : Item 1 term.text term.node ([] ++ ['\n']) := item_text term ⟨'\n', [], rfl, rfl⟩
  have arguments : Arguments 1 (' ' :: term.text ++ []) [term.node] ['\n'] :=
    .cons_inside item (text_inside term) (.nil fun _ first => by cases first)
  have head : Item 1 "печатать".toList (.symbol "печатать" 1)
      (' ' :: term.text ++ [] ++ ['\n']) :=
    .symbol (by decide) (startsWith_space _).endsSymbol
  have phrase : WrittenPhrase 1 ("печатать".toList ++ (' ' :: term.text ++ []))
      ⟨.symbol "печатать" 1, [term.node], 1⟩ ['\n'] := .mk rfl head arguments
  have held : Phrase.nesting ⟨.symbol "печатать" 1, [term.node], 1⟩ < nesting := by
    simp only [program, Node.nesting, Node.nestingList, List.isEmpty_cons, Bool.false_eq_true,
      ↓reduceIte] at within
    simp only [Phrase.nesting, Node.nesting, Node.nestingList]
    omega
  rw [whole, parse_phrase phrase held]
  rfl

end Term

/-! ## Evaluations that come to a value -/

section

variable {σ α β : Type}

namespace Trace

/-- The evaluation comes to the value and leaves these effects behind. -/
def ComesTo (trace : Trace σ α) (value : α) (after : Effects σ) : Prop :=
  trace.result = .ok value ∧ trace.effects = after

private theorem ComesTo.visiting {inner : Trace σ α} {value : α} {after : Effects σ}
    (comes : inner.ComesTo value after) (depth : Nat) (effects : Effects σ) :
    (Trace.visiting depth effects inner).ComesTo value after :=
  comes

private theorem ComesTo.andThen {first : Trace σ α} {next : α → Effects σ → Trace σ β} {value : α}
    {between after : Effects σ} {last : β} (comes : first.ComesTo value between)
    (goesOn : (next value between).ComesTo last after) :
    (first.andThen next).ComesTo last after := by
  obtain ⟨result, effects⟩ := comes
  unfold Trace.andThen
  rw [result, effects]
  exact goesOn

end Trace

private theorem call_builtin {context : Context σ} {depth : Int} {builtin : Builtin}
    {arguments : List Value} {value : Value} {written : String}
    (called : builtin.call context.interpreter.functionText (context.room depth) arguments =
      .ok (value, written)) (head : Node) (line : Int) (effects : Effects σ) :
    call context depth head line (.builtin builtin) arguments effects =
      (.ok value, { effects with output := effects.output ++ written }) := by
  rw [call, called]

private theorem comesTo_expression {context : Context σ} {operator : String} {builtin : Builtin}
    {tail : List Node} {arguments : List Value} {value : Value} {written : String} {depth : Nat}
    {effects after : Effects σ} (bound : context.lookup operator = .builtin builtin)
    (evaluated : (traceAll context (depth + 1) tail effects).ComesTo arguments after)
    (called : builtin.call context.interpreter.functionText (context.room depth) arguments =
      .ok (value, written)) (lineForm : Bool) :
    (trace context depth (.expression (.symbol operator 1) tail lineForm 1) effects).ComesTo value
      { after with output := after.output ++ written } := by
  have head : (trace context (depth + 1) (.symbol operator 1) effects).ComesTo (.builtin builtin)
      effects := ⟨congrArg Except.ok bound, rfl⟩
  apply Trace.ComesTo.visiting
  apply head.andThen
  apply evaluated.andThen
  rw [call_builtin called]
  exact ⟨rfl, rfl⟩

end

/-! ## The operators on integers -/

namespace Term

/-- The integers of several terms, as arguments of a call. -/
def arguments (terms : List Term) : List Value := terms.map fun term => .int term.value

/-- An operator that is exact on integers folds the integers of several terms into one. -/
private theorem foldlM_ints {operator : Value → Value → Except CallError Value}
    {onInts : Int → Int → Int} {collected : List Term → Int}
    (exactly : ∀ left right : Int,
      operator (.int left) (.int right) = .ok (.int (onInts left right)))
    (none : ∀ start, onInts start (collected []) = start)
    (next : ∀ start term terms, onInts (onInts start (value term)) (collected terms) =
      onInts start (collected (term :: terms)))
    (terms : List Term) (start : Int) :
    (arguments terms).foldlM operator (.int start) =
      .ok (.int (onInts start (collected terms))) := by
  induction terms generalizing start with
  | nil =>
      rw [none]
      rfl
  | cons term terms ih =>
      have rest := ih (onInts start term.value)
      rw [next] at rest
      rw [arguments, List.map_cons, List.foldlM_cons, exactly]
      exact rest

section

variable (functionText : Value → String) (room : Nat)

private theorem call_add (terms : List Term) :
    Builtin.call functionText room .add (arguments terms) = .ok (.int (sumOf terms), "") := by
  have fold := @foldlM_ints Value.add (· + ·) sumOf (fun _ _ => rfl) Int.add_zero
    (fun start term terms => Int.add_assoc start term.value (sumOf terms)) terms 0
  rw [Builtin.call, Builtin.sum, fold, Int.zero_add]
  rfl

private theorem call_multiply (terms : List Term) :
    Builtin.call functionText room .multiply (arguments terms) =
      .ok (.int (productOf terms), "") := by
  have fold := @foldlM_ints Value.multiply (· * ·) productOf (fun _ _ => rfl) Int.mul_one
    (fun start term terms => Int.mul_assoc start term.value (productOf terms)) terms 1
  rw [Builtin.call, Builtin.product, fold, Int.one_mul]
  rfl

private theorem call_subtract (first : Term) (others : List Term) :
    Builtin.call functionText room .subtract (arguments (first :: others)) =
      .ok (.int (first.value - sumOf others), "") := by
  have fold := @foldlM_ints Value.subtract (· - ·) sumOf (fun _ _ => rfl) Int.sub_zero
    (fun start term terms => Int.sub_sub start term.value (sumOf terms)) others first.value
  have difference : Builtin.difference (arguments (first :: others)) =
      .ok (.int (first.value - sumOf others)) := fold
  rw [Builtin.call, difference]
  rfl

private theorem call_print {value : Int} (short : Numeral.fits value = true) :
    Builtin.call functionText room .print [.int value] =
      .ok (.text (Numeral.text value), Numeral.text value) := by
  have texts : Value.texts functionText room [.int value] = .ok [Numeral.text value] := by
    simp [Value.texts, Value.toText, short, bind, Except.bind, pure, Except.pure]
  have joined : String.join [Numeral.text value] = Numeral.text value := by simp [String.join]
  rw [Builtin.call, Builtin.printed, texts]
  exact congrArg (fun text => Except.ok (Value.text text, text)) joined

end

/-! ## Evaluating terms -/

section

variable {σ : Type} {context : Context σ}

/-- The builtin functions are bound to their symbols. -/
def Standard (context : Context σ) : Prop :=
  ∀ builtin : Builtin, context.lookup builtin.symbol = .builtin builtin

private theorem comesTo_applied (standard : Standard context) (builtin : Builtin)
    {nodes : List Node} {arguments : List Value} {value : Value} {depth : Nat} {effects : Effects σ}
    (evaluated : (traceAll context (depth + 1) nodes effects).ComesTo arguments effects)
    (called : builtin.call context.interpreter.functionText (context.room depth) arguments =
      .ok (value, "")) :
    (trace context depth (.expression (.symbol builtin.symbol 1) nodes false 1) effects).ComesTo
      value effects := by
  have comes := comesTo_expression (standard builtin) evaluated called false
  rwa [String.append_empty] at comes

private theorem comesTo_cons {node : Node} {nodes : List Node} {value : Value} {values : List Value}
    {depth : Nat} {effects : Effects σ}
    (first : (trace context depth node effects).ComesTo value effects)
    (others : (traceAll context depth nodes effects).ComesTo values effects) :
    (traceAll context depth (node :: nodes) effects).ComesTo (value :: values) effects :=
  first.andThen (others.andThen ⟨rfl, rfl⟩)

mutual

/-- A term is evaluated to the integer that it stands for, and nothing is written. -/
private theorem comesTo_node (standard : Standard context) (term : Term) (depth : Nat)
    (effects : Effects σ) :
    (trace context depth term.node effects).ComesTo (.int term.value) effects := by
  cases term with
  | number written => exact ⟨rfl, rfl⟩
  | sum terms =>
      have operands := comesTo_nodes standard terms (depth + 1) effects
      exact comesTo_applied standard .add operands (call_add _ _ terms)
  | product terms =>
      have operands := comesTo_nodes standard terms (depth + 1) effects
      exact comesTo_applied standard .multiply operands (call_multiply _ _ terms)
  | difference first others =>
      have operands := comesTo_cons (comesTo_node standard first (depth + 1) effects)
        (comesTo_nodes standard others (depth + 1) effects)
      exact comesTo_applied standard .subtract operands (call_subtract _ _ first others)

private theorem comesTo_nodes (standard : Standard context) (terms : List Term) (depth : Nat)
    (effects : Effects σ) :
    (traceAll context depth (nodes terms) effects).ComesTo (arguments terms) effects := by
  cases terms with
  | nil => exact ⟨rfl, rfl⟩
  | cons term terms =>
      exact comesTo_cons (comesTo_node standard term depth effects)
        (comesTo_nodes standard terms depth effects)

end

private theorem comesTo_program (standard : Standard context) {term : Term}
    (short : Numeral.fits term.value = true) (effects : Effects σ) :
    (trace context 1 term.program effects).ComesTo (.text (Numeral.text term.value))
      { effects with output := effects.output ++ Numeral.text term.value } := by
  have argument := @comesTo_cons _ context _ [] _ [] 3 effects
    (comesTo_node standard term 3 effects) ⟨rfl, rfl⟩
  have line := comesTo_expression (standard .print) argument (call_print _ _ short) true
  exact line.andThen ⟨rfl, rfl⟩

end

end Term

/-! ## Programs that print a term -/

/-- The decimal text of an integer is the usual one. -/
private theorem Numeral.text_eq_toString (value : Int) : Numeral.text value = toString value := by
  cases value with
  | ofNat natural =>
      have nonneg : ¬ Int.ofNat natural < 0 := Int.not_lt.mpr (Int.natCast_nonneg natural)
      unfold Numeral.text Numeral.toText
      rw [if_neg nonneg]
      rfl
  | negSucc natural =>
      have negative : Int.negSucc natural < 0 := Int.negSucc_lt_zero natural
      have minus : toString (Int.negSucc natural) =
          "-" ++ String.ofList (Nat.toDigits 10 (natural + 1)) := rfl
      unfold Numeral.text Numeral.toText
      rw [if_pos negative, minus, String.ofList_cons]
      rfl

private theorem Settings.standard_context {σ : Type} (settings : Settings)
    (interpreter : Interpreter)
    (host : Host σ) : Term.Standard (settings.context interpreter host []) := by
  intro builtin
  cases builtin <;> rfl

/-- A program that prints an arithmetic term is read as the tree of the term. Executed with the
standard symbols and without limits of its own, it comes to the decimal text of the integer that the
term stands for, and writes just this text. The integers inside the term may be as large as they
are. -/
theorem execute_term {σ : Type} {interpreter : Interpreter} (term : Term)
    (read : term.program.nesting ≤ interpreter.readingLimit)
    (within : term.program.height ≤ interpreter.evaluationLimit)
    (short : (Nat.toDigits 10 term.value.natAbs).length ≤ Numeral.digitLimit) (host : Host σ)
    (effects : Effects σ) :
    parse interpreter.readingLimit term.source = .ok term.program ∧
      execute interpreter {} host term.program effects =
        (.ok (.text (toString term.value)),
          { effects with output := effects.output ++ toString term.value }) := by
  refine ⟨Term.parse_source read, ?_⟩
  let context := ({} : Settings).context interpreter host []
  have fits := (Numeral.fits_iff_length_le term.value).mpr short
  have standard : Term.Standard context := ({} : Settings).standard_context interpreter host
  have comes := Term.comesTo_program standard fits effects
  have run := eval_of_height_le context (Int.ofNat_le.mpr within) effects
  rw [comes.1, comes.2, Numeral.text_eq_toString] at run
  -- Settings without limits leave the limit of the interpreter.
  have unlimited : context.withMaxDepth (some interpreter.evaluationLimit) = context := by
    have least : context.maxDepth = some (interpreter.evaluationLimit : Int) :=
      congrArg some (Int.min_self _)
    rw [← least]
    rfl
  have start : ({ effects with gas := none } : Machine σ) = effects.atDepth 0 := rfl
  rw [unlimited] at run
  unfold execute
  dsimp only
  rw [start, run]
  rfl

/-- Two less the product of three and four, less seven. -/
def negativeTerm : Term :=
  .difference (.number ⟨['2'], by decide, List.all_eq_true.mp rfl, by decide⟩)
    [.product [.number ⟨['3'], by decide, List.all_eq_true.mp rfl, by decide⟩,
        .number ⟨['4'], by decide, List.all_eq_true.mp rfl, by decide⟩],
      .number ⟨['0', '7'], by decide, List.all_eq_true.mp rfl, by decide⟩]

theorem execute_negativeTerm :
    let interpreter : Interpreter := ⟨3, 5, fun _ => "f"⟩
    negativeTerm.program.nesting ≤ interpreter.readingLimit ∧
      negativeTerm.program.height ≤ interpreter.evaluationLimit ∧
      (Nat.toDigits 10 negativeTerm.value.natAbs).length ≤ Numeral.digitLimit ∧
      parse interpreter.readingLimit "печатать (- 2 (* 3 4) 07)" = .ok negativeTerm.program ∧
      execute interpreter {} Host.idle negativeTerm.program ⟨"", ()⟩ =
        (.ok (.text "-17"), ⟨"-17", ()⟩) := by
  intro interpreter
  have read : negativeTerm.program.nesting ≤ interpreter.readingLimit := by decide
  have within : negativeTerm.program.height ≤ interpreter.evaluationLimit := by decide
  have short : (Nat.toDigits 10 negativeTerm.value.natAbs).length ≤ Numeral.digitLimit := by decide
  have source : negativeTerm.source = "печатать (- 2 (* 3 4) 07)" := by decide
  have text : toString negativeTerm.value = "-17" := by decide
  have spec := execute_term negativeTerm read within short Host.idle ⟨"", ()⟩
  rw [source, text] at spec
  exact ⟨read, within, short, spec⟩

end IndentLisp
