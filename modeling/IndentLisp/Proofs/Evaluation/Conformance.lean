import IndentLisp.Proofs.Builtin
import IndentLisp.Proofs.Evaluation.DepthLimit
import IndentLisp.Proofs.Node.Preorder

/-!
# What the parts of a program can do

Whatever an evaluation with the standard symbols does, each part of the tree does in the same few
ways: it comes to a value that the named builtin functions can make, or it fails for a cause that is
in the tree or in the limits. Each way of putting evaluations together keeps to that.
-/

set_option autoImplicit false

namespace IndentLisp

variable {σ α β : Type}

/-! ## Failures -/

/-- The tree has the symbol of the builtin function. -/
def Node.Names (tree : Node) (function : Builtin) : Prop :=
  ∃ line, .symbol function.symbol line ∈ tree.preorder

/-- The tree has an expression on the line. -/
def Node.HasExpression (tree : Node) (line : Int) : Prop :=
  ∃ head tail lineForm, .expression head tail lineForm line ∈ tree.preorder

def Event.Made (named : Builtin → Prop) : Event → Prop
  | valued value => ∃ height, value.Made named height
  | called function arguments =>
    ∃ height, function.Made named height ∧ ∀ argument ∈ arguments, argument.Made named height

/-- The ways in which parts of the tree can fail that are so high, on a machine and with a last
event. -/
inductive Fails (tree : Node) (context : Context σ) (height : Nat) (machine : Machine σ)
    (last : Option Event) : RunError → Prop where
  | failedCall {line : Int} {error : CallError} : tree.HasExpression line →
      error.located = true → error.Made tree.Names →
      Fails tree context height machine last (.failedCall line error)
  | notCallable {line : Int} {symbol : Option String} : tree.HasExpression line →
      (∀ name ∈ symbol, Node.isSymbolName name.toList = true) →
      Fails tree context height machine last (.notCallable line symbol)
  | call {error : CallError} : error.located = false → error.Made tree.Names →
      Fails tree context height machine last (.call error)
  | numeralTooLong {arguments : List Value} {number : Int} :
      last = some (.called (.builtin .print) arguments) →
      number ∈ Value.integersOf arguments → Numeral.fits number = false →
      Fails tree context height machine last (.call .numeralTooLong)
  | stackOverflow : context.interpreter.evaluationLimit < machine.depth + height →
      Fails tree context height machine last (.call .stackOverflow)
  | gasExhausted : machine.gas.isSome = true →
      Fails tree context height machine last .gasExhausted
  | depthExceeded {limit : Int} : context.maxDepth = some limit →
      limit < machine.depth + height → Fails tree context height machine last .depthExceeded

private theorem Fails.imp {tree : Node} {context : Context σ} {height height' : Nat}
    {machine machine' : Machine σ} {last last' : Option Event} {error : RunError}
    (fails : Fails tree context height machine last error)
    (depth : machine.depth + height ≤ machine'.depth + height')
    (gas : machine.gas.isSome = true → machine'.gas.isSome = true)
    (event : ∀ event, last = some event → last' = some event) :
    Fails tree context height' machine' last' error := by
  cases fails with
  | failedCall inside located made => exact .failedCall inside located made
  | notCallable inside names => exact .notCallable inside names
  | call located made => exact .call located made
  | numeralTooLong isLast member long => exact .numeralTooLong (event _ isLast) member long
  | stackOverflow below => exact .stackOverflow (Int.lt_of_lt_of_le below depth)
  | gasExhausted budget => exact .gasExhausted (gas budget)
  | depthExceeded limited below => exact .depthExceeded limited (Int.lt_of_lt_of_le below depth)

/-- Whatever the run does, it does as parts of the tree can that are so high: it comes to a value
that can be made, or it fails in one of those ways. -/
structure Conforms (tree : Node) (context : Context σ) (height : Nat) (made : α → Prop)
    (run : Run σ α) (events : Machine σ → List Event) : Prop where
  value {machine after : Machine σ} {value : α} : run machine = (.ok value, after) → made value
  error {machine after : Machine σ} {error : RunError} : run machine = (.error error, after) →
    Fails tree context height machine (events machine).getLast? error
  event {machine : Machine σ} : ∀ event ∈ events machine, event.Made tree.Names

private theorem apply_builtin (context : Context σ) (head : Node) (line : Int) (function : Builtin)
    (arguments : List Value) (machine : Machine σ) :
    apply context head line (.builtin function) arguments machine =
      match function.call context.interpreter.functionText (context.room machine.depth)
          arguments with
      | .ok (value, written) => (.ok value, { machine with output := machine.output ++ written })
      | .error error => (.error (.ofCall line error), machine) := by
  unfold apply call
  dsimp only
  cases function.call context.interpreter.functionText (context.room machine.depth) arguments <;>
    rfl

namespace Conforms

variable {tree : Node} {context : Context σ} {height height' : Nat} {made : α → Prop}
  {made' : β → Prop} {run : Run σ α} {next : α → Run σ β} {events : Machine σ → List Event}
  {events' : α → Machine σ → List Event}

private theorem pure {value : α} (isMade : made value) :
    Conforms tree context height made (Pure.pure value) fun _ => [] where
  value found := by
    cases found
    exact isMade
  error failed := by cases failed
  event := nofun

/-- The first run leaves the depth and the limit on the gas in place for the second one. -/
private theorem bind {cost : Machine σ → Nat}
    (conforms : Conforms tree context height made run events)
    (keeps : KeepsDepth run) (costs : Costs run cost)
    (conforms' : ∀ value, made value →
      Conforms tree context height' made' (next value) (events' value)) :
    Conforms tree context (max height height') made' (run >>= next)
      fun machine => events machine ++ eventsAfter (run machine) events' where
  value found := by
    obtain ⟨value, between, first, second⟩ := exists_of_bind_eq_ok found
    exact (conforms' value (conforms.value first)).value second
  error {machine after error} failed := by
    have depth := keeps machine
    have gas := costs.spends machine
    rcases first : run machine with ⟨_ | value, between⟩
    · rw [run_bind_error first] at failed
      cases failed
      have nothing : eventsAfter (.error error, after) events' = [] := rfl
      rw [nothing, List.append_nil]
      exact (conforms.error first).imp (by omega) id fun _ => id
    · rw [run_bind_ok first] at failed
      rw [first] at depth gas
      refine ((conforms' value (conforms.value first)).error failed).imp ?_ ?_ ?_
      · dsimp only at depth
        omega
      · intro budget
        rwa [gas, Option.isSome_map] at budget
      · intro event last
        exact List.getLast?_append.trans (congrArg (Option.or · _) last)
  event {machine} event member := by
    rcases List.mem_append.mp member with early | late
    · exact conforms.event event early
    · rcases first : run machine with ⟨_ | value, between⟩
      · rw [first] at late
        cases late
      · rw [first] at late
        exact (conforms' value (conforms.value first)).event event late

/-- What follows may be as deep. -/
private theorem bind_same {cost : Machine σ → Nat}
    (conforms : Conforms tree context height made run events) (keeps : KeepsDepth run)
    (costs : Costs run cost)
    (conforms' : ∀ value, made value →
      Conforms tree context height made' (next value) (events' value)) :
    Conforms tree context height made' (run >>= next)
      fun machine => events machine ++ eventsAfter (run machine) events' := by
  have both := conforms.bind keeps costs conforms'
  rwa [Nat.max_self] at both

private theorem weaken (conforms : Conforms tree context height made run events) {made' : α → Prop}
    (weaker : ∀ value, made value → made' value) :
    Conforms tree context height made' run events where
  value found := weaker _ (conforms.value found)
  error failed := conforms.error failed
  event := conforms.event

/-- What is made of the value of a run without another event. -/
private theorem map (conforms : Conforms tree context height made run events) {f : α → β}
    (isMade : ∀ value, made value → made' (f value)) :
    Conforms tree context height made' (run >>= fun value => Pure.pure (f value)) events where
  value found := by
    obtain ⟨value, between, first, second⟩ := exists_of_bind_eq_ok found
    cases second
    exact isMade value (conforms.value first)
  error {machine after error} failed := by
    rcases first : run machine with ⟨_ | value, between⟩
    · rw [run_bind_error first] at failed
      cases failed
      exact conforms.error first
    · rw [run_bind_ok first] at failed
      cases failed
  event := conforms.event

private theorem metered (conforms : Conforms tree context height made run events) :
    Conforms tree context (height + 1) made (metered context run) (visitEvents context events) where
  value {machine after value} found := by
    obtain ⟨entered, left, inside, -⟩ := exists_of_metered_eq_ok found fun _ => 0
    exact conforms.value inside
  error {machine after error} failed := by
    unfold IndentLisp.metered at failed
    dsimp only at failed
    split at failed
    · next short =>
      cases failed
      refine .gasExhausted ?_
      cases budget : machine.gas with
      | none => simp [budget] at short
      | some => rfl
    · next covered =>
      split at failed
      · next refused =>
        cases failed
        cases limited : context.maxDepth with
        | none => simp [limited] at refused
        | some limit =>
            have low : limit < machine.depth + 1 := by simpa [limited] using refused
            exact .depthExceeded limited (by omega)
      · next admitted =>
        obtain ⟨result, -⟩ := Prod.mk.inj failed
        have inside := conforms.error (Prod.ext result rfl)
        have entered : visitEvents context events machine = events _ :=
          if_neg fun refused => ((Bool.or_eq_true _ _).mp refused).elim covered admitted
        rw [entered]
        refine inside.imp ?_ ?_ fun _ => id
        · dsimp only
          omega
        · exact fun budget => Option.isSome_map.symm.trans budget
  event {machine} event member := by
    unfold visitEvents at member
    dsimp only at member
    split at member
    · cases member
    · exact conforms.event event member

/-- The value of a node is an event of its own, the last one. -/
private theorem valued {run : Run σ Value} {events : Machine σ → List Event} {deep : Nat}
    (conforms : Conforms tree context height (Value.Made tree.Names deep) run events) :
    Conforms tree context height (Value.Made tree.Names deep) run (thenValued run events) where
  value found := conforms.value found
  error {machine after error} failed := by
    have nothing : thenValued run events machine = events machine := by
      rw [thenValued, failed]
      exact List.append_nil _
    rw [nothing]
    exact conforms.error failed
  event {machine} event member := by
    rcases List.mem_append.mp member with early | late
    · exact conforms.event event early
    · rcases found : run machine with ⟨_ | value, after⟩
      · rw [found] at late
        cases late
      · rw [found] at late
        obtain rfl := List.mem_singleton.mp late
        exact ⟨deep, conforms.value found⟩

private theorem apply {head : Node} {line : Int} {function : Value} {arguments : List Value}
    {deep : Nat} (inside : tree.HasExpression line)
    (named : ∀ name ∈ head.symbolName?, Node.isSymbolName name.toList = true)
    (isMade : function.Made tree.Names deep)
    (areMade : ∀ argument ∈ arguments, argument.Made tree.Names height) :
    Conforms tree context height (Value.Made tree.Names height)
      (IndentLisp.apply context head line function arguments)
      fun _ => [.called function arguments] where
  value {machine after value} found := by
    cases isMade with
    | @builtin _ function isNamed =>
        have comes := Builtin.comes_call context.interpreter.functionText
          (context.room machine.depth) isNamed areMade
        rw [apply_builtin] at found
        cases result : function.call context.interpreter.functionText
            (context.room machine.depth) arguments with
        | error =>
            rw [result] at found
            cases found
        | ok outcome =>
            rw [result] at found comes
            cases found
            exact comes
    | nothing | bool | int | float | text | list => cases found
  error {machine after error} failed := by
    cases isMade with
    | @builtin _ function isNamed =>
        have comes := Builtin.comes_call context.interpreter.functionText
          (context.room machine.depth) isNamed areMade
        rw [apply_builtin] at failed
        cases result : function.call context.interpreter.functionText
            (context.room machine.depth) arguments with
        | ok outcome =>
            rw [result] at failed
            cases failed
        | error reason =>
            rw [result] at failed comes
            cases failed
            rcases comes with made | ⟨rfl, unprintable⟩
            · rw [RunError.ofCall]
              cases located : reason.located with
              | true => exact .failedCall inside located made
              | false => exact .call located made
            · cases unprintable with
              | numeralTooLong member long => exact .numeralTooLong rfl member long
              | stackOverflow deep =>
                  have nested := Value.nestingOf_le fun argument member =>
                    (areMade argument member).nesting_le
                  unfold Context.room at deep
                  exact .stackOverflow (by omega)
    | nothing | bool | int | float | text | list =>
        cases failed
        exact .notCallable inside named
  event event member := by
    obtain rfl := List.mem_singleton.mp member
    exact ⟨max deep height, isMade.mono (Nat.le_max_left _ _),
      fun argument member => (areMade argument member).mono (Nat.le_max_right _ _)⟩

end Conforms

/-! ## The standard symbols -/

/-- A standard symbol stands for a constant or for the builtin function of that symbol. -/
private theorem Bindings.made_of_lookup_standard {named : Builtin → Prop} {symbol : String}
    {height : Nat} (isNamed : ∀ function : Builtin, function.symbol = symbol → named function) :
    ((Bindings.standard.lookup symbol).getD .nothing).Made named height := by
  cases found : Bindings.standard.lookup symbol with
  | none => exact .nothing
  | some value =>
      obtain ⟨before, after, split, -⟩ := List.lookup_eq_some_iff.mp found
      have member : (symbol, value) ∈ Bindings.standard := by
        rw [split]
        exact List.mem_append_right _ List.mem_cons_self
      simp only [standard, Builtin.all, List.mem_append, List.mem_cons, List.mem_map,
        List.not_mem_nil, or_false, Prod.mk.injEq] at member
      rcases member with (⟨-, rfl⟩ | ⟨-, rfl⟩) | ⟨function, -, same, rfl⟩
      · exact .bool true
      · exact .bool false
      · exact .builtin (isNamed function same)

/-! ## Evaluations -/

/-- The tree can be that of a program, and the context has the standard symbols. -/
structure IsStandard (tree : Node) (context : Context σ) : Prop where
  readable : ∀ node ∈ tree.preorder, node.Readable
  bindings : context.bindings = Bindings.standard

section

variable {tree : Node} {context : Context σ}

mutual

theorem conforms_eval (standard : IsStandard tree context) (node : Node)
    (part : node.preorder ⊆ tree.preorder) :
    Conforms tree context node.height (Value.Made tree.Names node.height) (eval context node)
      (events context node) := by
  have here : node ∈ tree.preorder := part (by cases node <;> exact List.mem_cons_self)
  cases node with
  | block children line =>
      have below : Node.preorderList children ⊆ tree.preorder := List.subset_of_cons_subset part
      have last := conforms_evalLast standard children below (Nat.le_succ _) .nothing
      exact last.metered.valued
  | expression head tail lineForm line =>
      obtain ⟨partHead, partTail⟩ := List.append_subset.mp (List.subset_of_cons_subset part)
      have named : ∀ name ∈ head.symbolName?, Node.isSymbolName name.toList = true := by
        cases head with
        | symbol =>
            rintro _ ⟨⟩
            exact standard.readable _ (partHead List.mem_cons_self)
        | block | expression | number | string | array | unknown => exact nofun
      have inside : tree.HasExpression line := ⟨head, tail, lineForm, here⟩
      have calls (function : Value) (made : function.Made tree.Names head.height) :=
        (conforms_evalAll standard tail partTail).bind_same (keepsDepth_evalAll context tail)
          (costs_evalAll context tail) fun arguments areMade =>
            Conforms.apply inside named made areMade
      have whole := (conforms_eval standard head partHead).bind (keepsDepth_eval context head)
        (costs_eval context head) calls
      have higher : Node.heightList tail ≤ (Node.expression head tail lineForm line).height :=
        Nat.le_succ_of_le (Nat.le_max_right _ _)
      exact (whole.weaken fun _ made => made.mono higher).metered.valued
  | array items line =>
      have below : Node.preorderList items ⊆ tree.preorder := List.subset_of_cons_subset part
      have values := conforms_evalAll standard items below
      exact (values.map fun _ made => Value.Made.list made).metered.valued
  | symbol name line =>
      have value : (context.lookup name).Made tree.Names 1 := by
        rw [Context.lookup, standard.bindings]
        exact Bindings.made_of_lookup_standard fun function same => ⟨line, same ▸ here⟩
      exact (Conforms.pure value : Conforms tree context 0 _ _ _).metered.valued
  | number value line =>
      exact (Conforms.pure (.int value) : Conforms tree context 0 _ _ _).metered.valued
  | string text line =>
      exact (Conforms.pure (.text text) : Conforms tree context 0 _ _ _).metered.valued
  | unknown kind line => exact (standard.readable _ here).elim

private theorem conforms_evalAll (standard : IsStandard tree context) (nodes : List Node)
    (part : Node.preorderList nodes ⊆ tree.preorder) :
    Conforms tree context (Node.heightList nodes)
      (fun values => ∀ value ∈ values, value.Made tree.Names (Node.heightList nodes))
      (evalAll context nodes) (eventsAll context nodes) := by
  cases nodes with
  | nil => exact .pure nofun
  | cons node nodes =>
      obtain ⟨first, others⟩ := List.append_subset.mp part
      refine (conforms_eval standard node first).bind (keepsDepth_eval context node)
        (costs_eval context node) fun value made => ?_
      exact (conforms_evalAll standard nodes others).map fun values all =>
        List.forall_mem_cons.mpr ⟨made.mono (Nat.le_max_left _ _),
          fun value member => (all value member).mono (Nat.le_max_right _ _)⟩

private theorem conforms_evalLast (standard : IsStandard tree context) (nodes : List Node)
    (part : Node.preorderList nodes ⊆ tree.preorder) {height : Nat}
    (within : Node.heightList nodes ≤ height) {value : Value}
    (made : value.Made tree.Names height) :
    Conforms tree context (Node.heightList nodes) (Value.Made tree.Names height)
      (evalLast context value nodes) (eventsAll context nodes) := by
  cases nodes with
  | nil => exact .pure made
  | cons node nodes =>
      obtain ⟨first, others⟩ := List.append_subset.mp part
      obtain ⟨here, below⟩ := Nat.max_le.mp within
      exact (conforms_eval standard node first).bind (keepsDepth_eval context node)
        (costs_eval context node) fun value made =>
          conforms_evalLast standard nodes others below (made.mono here)

end

end

end IndentLisp
