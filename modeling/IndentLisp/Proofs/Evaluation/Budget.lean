import IndentLisp.Evaluation.Calls
import IndentLisp.Node.Measure
import Mathlib.Algebra.GroupWithZero.Nat

/-!
# The gas budget

Gas counts evaluations and does nothing else. A budget that covers the evaluations of a run without
budget is charged for them and does not show otherwise. A smaller one breaks the run off, and what
has been written by then is a beginning of what the whole run writes.
-/

set_option autoImplicit false

namespace IndentLisp

variable {σ : Type}

/-! ## Machines -/

def Machine.withGas (machine : Machine σ) (gas : Option Int) : Machine σ := { machine with gas }

@[simp] theorem Machine.gas_withGas (machine : Machine σ) (gas : Option Int) :
    (machine.withGas gas).gas = gas := rfl

private theorem Machine.withGas_self {machine : Machine σ} {gas : Option Int}
    (same : machine.gas = gas) :
    machine.withGas gas = machine := by
  rw [← same]
  rfl

/-- The machine inside the visit of a node. -/
def Machine.enter (machine : Machine σ) : Machine σ := { machine with depth := machine.depth + 1 }

/-- The machine behind the visit of a node. -/
def Machine.leave (machine : Machine σ) : Machine σ := { machine with depth := machine.depth - 1 }

@[simp] theorem Machine.gas_leave (machine : Machine σ) : machine.leave.gas = machine.gas := rfl

/-- Whether the limit on the depth refuses a visit. -/
def Context.tooDeep (context : Context σ) (machine : Machine σ) : Bool :=
  context.maxDepth.any (· < machine.depth + 1)

/-! ## Runs -/

theorem run_bind {α β : Type} (first : Run σ α) (next : α → Run σ β) (machine : Machine σ) :
    (first >>= next) machine =
      match first machine with
      | (.ok value, after) => next value after
      | (.error error, after) => (.error error, after) := by
  change (ExceptT.bindCont next (first machine).1 : StateM (Machine σ) _) (first machine).2 = _
  rcases first machine with ⟨_ | _, after⟩ <;> rfl

theorem run_bind_ok {α β : Type} {first : Run σ α} {machine after : Machine σ} {value : α}
    (found : first machine = (.ok value, after)) (next : α → Run σ β) :
    (first >>= next) machine = next value after := by
  rw [run_bind, found]

theorem run_bind_error {α β : Type} {first : Run σ α} {machine after : Machine σ}
    {error : RunError} (failed : first machine = (.error error, after)) (next : α → Run σ β) :
    (first >>= next) machine = (.error error, after) := by
  rw [run_bind, failed]

section

variable {α : Type} (context : Context σ) (visit : Run σ α) (machine : Machine σ)

theorem metered_free :
    metered context visit (machine.withGas none) =
      if context.tooDeep machine then (.error .depthExceeded, machine.withGas none)
      else ((visit (machine.enter.withGas none)).1,
        (visit (machine.enter.withGas none)).2.leave) := by
  rfl

private theorem metered_exhausted {gas : Int} (short : gas ≤ 0) :
    metered context visit (machine.withGas (some gas)) =
      (.error .gasExhausted, machine.withGas (some (gas - 1))) := by
  have below : gas - 1 < 0 := by omega
  simp [metered, Machine.withGas, below]

private theorem metered_budget {gas : Int} (some : 0 < gas) :
    metered context visit (machine.withGas (.some gas)) =
      if context.tooDeep machine then (.error .depthExceeded, machine.withGas (.some (gas - 1)))
      else ((visit (machine.enter.withGas (.some (gas - 1)))).1,
        (visit (machine.enter.withGas (.some (gas - 1)))).2.leave) := by
  have covered : ¬ gas - 1 < 0 := by omega
  simp only [metered, Machine.withGas, Option.map_some, Option.any_some, covered, decide_false,
    Bool.false_eq_true, if_false]
  rfl

variable (inside : Machine σ → Nat)

private theorem visitCalls_free :
    visitCalls context inside (machine.withGas none) =
      if context.tooDeep machine then 1 else inside (machine.enter.withGas none) + 1 := by
  rfl

private theorem visitCalls_exhausted {gas : Int} (short : gas ≤ 0) :
    visitCalls context inside (machine.withGas (some gas)) = 1 := by
  have below : gas - 1 < 0 := by omega
  simp [visitCalls, Machine.withGas, below]

private theorem visitCalls_budget {gas : Int} (some : 0 < gas) :
    visitCalls context inside (machine.withGas (.some gas)) =
      if context.tooDeep machine then 1
      else inside (machine.enter.withGas (.some (gas - 1))) + 1 := by
  have covered : ¬ gas - 1 < 0 := by omega
  simp only [visitCalls, Machine.withGas, Option.map_some, Option.any_some, covered, decide_false,
    Bool.false_or]
  rfl

end

/-! ## What a run costs -/

/-- The run that was given so much gas has broken off for want of it, having written a beginning of
the text. -/
structure BreaksOff {α : Type} (gas : Int) (outcome : Except RunError α × Machine σ)
    (text : String) : Prop where
  exhausted : outcome.1 = .error .gasExhausted
  gas : outcome.2.gas = some (if 0 ≤ gas then -1 else gas - 1)
  written : ∃ later, text = outcome.2.output ++ later

/-- Gas is charged for the given number of evaluations, and has no other effect unless it runs out.
A budget below zero is as good as none left. -/
structure Costs {α : Type} (run : Run σ α) (cost : Machine σ → Nat) : Prop where
  spends (machine : Machine σ) :
    (run machine).2.gas = machine.gas.map fun gas : Int => gas - cost machine
  writes (machine : Machine σ) : ∃ written, (run machine).2.output = machine.output ++ written
  covered (machine : Machine σ) (gas : Int) : cost (machine.withGas none) ≤ gas.toNat →
    run (machine.withGas (some gas)) =
      ((run (machine.withGas none)).1,
        (run (machine.withGas none)).2.withGas (some (gas - cost (machine.withGas none))))
  breaksOff (machine : Machine σ) (gas : Int) : gas.toNat < cost (machine.withGas none) →
    BreaksOff gas (run (machine.withGas (some gas))) (run (machine.withGas none)).2.output

private theorem Costs.gas_eq_none {α : Type} {run : Run σ α} {cost : Machine σ → Nat}
    (costs : Costs run cost) (machine : Machine σ) :
    (run (machine.withGas none)).2.gas = none :=
  costs.spends (machine.withGas none)

/-- A step that neither reads nor changes the budget costs nothing. -/
private theorem Costs.step {α : Type} {run : Run σ α}
    (same : ∀ machine gas, run (Machine.withGas machine gas) =
      ((run machine).1, (run machine).2.withGas gas))
    (writes : ∀ machine, ∃ written, (run machine).2.output = machine.output ++ written) :
    Costs run fun _ => 0 where
  spends machine := by
    have kept := same machine machine.gas
    rw [Machine.withGas_self rfl] at kept
    rw [kept]
    simp
  writes := writes
  covered machine gas _ := by
    have nothing : gas - ((0 : Nat) : Int) = gas := Int.sub_zero gas
    rw [same machine none, same machine (some gas), nothing]
    rfl
  breaksOff _ _ short := absurd short (Nat.not_lt_zero _)

private theorem Costs.pure {α : Type} (value : α) : Costs (pure value : Run σ α) fun _ => 0 :=
  .step (fun _ _ => rfl) fun _ => ⟨"", String.append_empty.symm⟩

private theorem Costs.throw {α : Type} (error : RunError) :
    Costs (throw error : Run σ α) fun _ => 0 :=
  .step (fun _ _ => rfl) fun _ => ⟨"", String.append_empty.symm⟩

private theorem Costs.apply (context : Context σ) (head : Node) (line : Int) (function : Value)
    (arguments : List Value) : Costs (apply context head line function arguments) fun _ => 0 := by
  refine .step (fun _ _ => rfl) fun machine => ?_
  cases function with
  | builtin builtin =>
      cases result : builtin.call context.interpreter.functionText (context.room machine.depth)
          arguments with
      | error => exact ⟨"", by simp [IndentLisp.apply, call, result]⟩
      | ok outcome => exact ⟨outcome.2, by simp [IndentLisp.apply, call, result]⟩
  | host name => exact context.host.appends name arguments machine.toEffects
  | nothing | bool | int | float | text | list => exact ⟨"", String.append_empty.symm⟩

section

variable {α β : Type} {first : Run σ α} {next : α → Run σ β} {cost cost' : Machine σ → Nat}

/-- A run that has broken off is not gone on with, however much more would be written. -/
private theorem BreaksOff.bind {gas : Int} {machine : Machine σ} {text : String}
    (broken : BreaksOff gas (first machine) text) (next : α → Run σ β) (later : String) :
    BreaksOff gas ((first >>= next) machine) (text ++ later) := by
  rcases limited : first machine with ⟨result, stop⟩
  rw [limited] at broken
  obtain rfl : result = .error .gasExhausted := broken.exhausted
  obtain ⟨between, written⟩ := broken.written
  rw [run_bind_error limited]
  exact ⟨rfl, broken.gas, between ++ later, by rw [written, String.append_assoc]⟩

private theorem Costs.bind (costs : Costs first cost) (costs' : ∀ value, Costs (next value) cost') :
    Costs (first >>= next) fun machine => cost machine + callsAfter (first machine) cost' where
  spends machine := by
    have spent := costs.spends machine
    rcases found : first machine with ⟨_ | value, after⟩
    · rw [found] at spent
      rw [run_bind_error found]
      simpa [callsAfter] using spent
    · rw [found] at spent
      rw [run_bind_ok found, (costs' value).spends after, spent, Option.map_map]
      congr 1
      funext gas
      simp [callsAfter]
      omega
  writes machine := by
    obtain ⟨written, output⟩ := costs.writes machine
    rcases found : first machine with ⟨_ | value, after⟩
    · rw [run_bind_error found]
      exact ⟨written, by simpa [found] using output⟩
    · obtain ⟨later, whole⟩ := (costs' value).writes after
      rw [found] at output
      rw [run_bind_ok found, whole, output]
      exact ⟨written ++ later, String.append_assoc⟩
  covered machine gas enough := by
    have spent := costs.gas_eq_none machine
    have limited := costs.covered machine gas (by omega)
    rcases found : first (machine.withGas none) with ⟨_ | value, after⟩
    · rw [found] at limited
      rw [run_bind_error found, run_bind_error limited]
      simp [callsAfter]
    · simp only [found, callsAfter] at limited enough spent ⊢
      have rest := (costs' value).covered after (gas - cost (machine.withGas none))
      rw [Machine.withGas_self spent] at rest
      rw [run_bind_ok found, run_bind_ok limited, rest (by omega), Int.natCast_add, Int.sub_sub]
  breaksOff machine gas short := by
    have spent := costs.gas_eq_none machine
    rcases found : first (machine.withGas none) with ⟨_ | value, after⟩
    · simp only [found, callsAfter, Nat.add_zero] at short
      have broken := (costs.breaksOff machine gas short).bind next ""
      rw [run_bind_error found]
      rwa [String.append_empty, found] at broken
    · obtain ⟨later, output⟩ := (costs' value).writes after
      simp only [found, callsAfter] at short spent
      rw [run_bind_ok found, output]
      -- The gas runs out in the first computation, or it is left for some of the second.
      by_cases early : gas.toNat < cost (machine.withGas none)
      · have broken := (costs.breaksOff machine gas early).bind next later
        rwa [found] at broken
      · have limited := costs.covered machine gas (by omega)
        have broken := (costs' value).breaksOff after (gas - cost (machine.withGas none))
        rw [Machine.withGas_self spent] at broken
        have broken := broken (by omega)
        rw [found] at limited
        rw [run_bind_ok limited, ← output]
        refine ⟨broken.exhausted, ?_, broken.written⟩
        rw [broken.gas]
        congr 1
        split <;> split <;> omega

/-- What comes after the last evaluation costs nothing. -/
private theorem Costs.bind_step (costs : Costs first cost)
    (step : ∀ value, Costs (next value) fun _ => 0) : Costs (first >>= next) cost := by
  have total : (fun machine => cost machine + callsAfter (first machine) fun _ => 0) = cost := by
    funext machine
    rw [callsAfter]
    split <;> rfl
  exact total ▸ costs.bind step

private theorem Costs.writes_metered (costs : Costs first cost) (context : Context σ)
    (machine : Machine σ) :
    ∃ written, (IndentLisp.metered context first machine).2.output = machine.output ++ written := by
  have nothing : ∃ written, machine.output = machine.output ++ written :=
    ⟨"", String.append_empty.symm⟩
  rcases budget : machine.gas with _ | gas
  · rw [← Machine.withGas_self budget, metered_free]
    split
    · exact nothing
    · exact costs.writes (machine.enter.withGas none)
  · rw [← Machine.withGas_self budget]
    by_cases left : 0 < gas
    · rw [metered_budget _ _ _ left]
      split
      · exact nothing
      · exact costs.writes (machine.enter.withGas (some (gas - 1)))
    · rw [metered_exhausted _ _ _ (Int.not_lt.mp left)]
      exact nothing

/-- A visit costs one more than what is done inside it. -/
private theorem Costs.metered {context : Context σ} (costs : Costs first cost) :
    Costs (metered context first) (visitCalls context cost) where
  spends machine := by
    rcases budget : machine.gas with _ | gas
    · rw [← Machine.withGas_self budget, metered_free]
      split
      · rfl
      · exact costs.gas_eq_none machine.enter
    · rw [← Machine.withGas_self budget]
      by_cases left : 0 < gas
      · have spent := costs.spends (machine.enter.withGas (some (gas - 1)))
        rw [metered_budget _ _ _ left, visitCalls_budget _ _ _ left]
        split
        · rfl
        · rw [Machine.gas_leave, spent]
          simp
          omega
      · have none : gas ≤ 0 := Int.not_lt.mp left
        rw [metered_exhausted _ _ _ none, visitCalls_exhausted _ _ _ none]
        rfl
  writes := costs.writes_metered context
  covered machine gas enough := by
    rw [visitCalls_free] at enough ⊢
    have left : 0 < gas := by
      split at enough <;> omega
    rw [metered_free, metered_budget _ _ _ left]
    split
    · rfl
    · next admitted =>
      rw [if_neg admitted] at enough
      have total : gas - 1 - cost (machine.enter.withGas none) =
          gas - (cost (machine.enter.withGas none) + 1 : Nat) := by omega
      rw [costs.covered machine.enter (gas - 1) (by omega), ← total]
      rfl
  breaksOff machine gas short := by
    by_cases left : 0 < gas
    · rw [visitCalls_free] at short
      rw [metered_free, metered_budget _ _ _ left]
      split at short
      · omega
      · next admitted =>
        have broken := costs.breaksOff machine.enter (gas - 1) (by omega)
        rw [if_neg admitted, if_neg admitted]
        refine ⟨broken.exhausted, ?_, broken.written⟩
        rw [Machine.gas_leave, broken.gas, if_pos (by omega), if_pos (by omega)]
    · -- Nothing is written before the first evaluation is refused.
      obtain ⟨later, output⟩ := costs.writes_metered context (machine.withGas none)
      rw [metered_exhausted _ _ _ (Int.not_lt.mp left)]
      refine ⟨rfl, ?_, later, output⟩
      rw [Machine.gas_withGas]
      congr 1
      split <;> omega

end

/-! ## Evaluations -/

mutual

theorem costs_eval (context : Context σ) (node : Node) :
    Costs (eval context node) (calls context node) := by
  cases node with
  | block children => exact (costs_evalLast context children .nothing).metered
  | expression head tail lineForm line =>
      have arguments (function : Value) := (costs_evalAll context tail).bind_step fun arguments =>
        .apply context head line function arguments
      exact ((costs_eval context head).bind arguments).metered
  | array items =>
      have values := (costs_evalAll context items).bind_step fun values =>
        .pure (Value.list values)
      exact values.metered
  | symbol | number | string => exact (Costs.pure _).metered
  | unknown => exact (Costs.throw _).metered

theorem costs_evalAll (context : Context σ) (nodes : List Node) :
    Costs (evalAll context nodes) (callsAll context nodes) := by
  cases nodes with
  | nil => exact .pure []
  | cons node nodes =>
      have others (value : Value) := (costs_evalAll context nodes).bind_step fun values =>
        .pure (value :: values)
      exact (costs_eval context node).bind others

private theorem costs_evalLast (context : Context σ) (nodes : List Node) (value : Value) :
    Costs (evalLast context value nodes) (callsAll context nodes) := by
  cases nodes with
  | nil => exact .pure value
  | cons node nodes =>
      exact (costs_eval context node).bind (costs_evalLast context nodes)

end

/-! ## Runs that come to a value -/

theorem exists_of_metered_eq_ok {α : Type} {context : Context σ} {visit : Run σ α}
    {machine after : Machine σ} {value : α}
    (found : metered context visit machine = (.ok value, after)) (inside : Machine σ → Nat) :
    ∃ entered left, visit entered = (.ok value, left) ∧
      visitCalls context inside machine = inside entered + 1 := by
  unfold metered at found
  unfold visitCalls
  dsimp only at found ⊢
  split at found
  · cases found
  · next covered =>
    split at found
    · cases found
    · next admitted =>
      obtain ⟨result, -⟩ := Prod.mk.inj found
      refine ⟨_, _, Prod.ext result rfl, ?_⟩
      exact if_neg fun refused => ((Bool.or_eq_true _ _).mp refused).elim covered admitted

theorem exists_of_bind_eq_ok {α β : Type} {first : Run σ α} {next : α → Run σ β}
    {machine after : Machine σ} {result : β}
    (found : (first >>= next) machine = (.ok result, after)) :
    ∃ value between, first machine = (.ok value, between) ∧
      next value between = (.ok result, after) := by
  rcases done : first machine with ⟨_ | value, between⟩
  · rw [run_bind_error done] at found
    cases found
  · rw [run_bind_ok done] at found
    exact ⟨value, between, rfl, found⟩

mutual

/-- A tree that has a value is evaluated once at each of its nodes. -/
private theorem calls_eq_size {context : Context σ} (node : Node) {machine after : Machine σ}
    {value : Value} (found : eval context node machine = (.ok value, after)) :
    calls context node machine = node.size := by
  cases node with
  | block children =>
      obtain ⟨entered, left, inside, count⟩ := exists_of_metered_eq_ok found _
      have same := callsAll_of_evalLast children inside
      rw [calls, count, same, Node.size]
  | expression head tail =>
      obtain ⟨entered, left, inside, count⟩ := exists_of_metered_eq_ok found _
      obtain ⟨function, between, first, inside⟩ := exists_of_bind_eq_ok inside
      obtain ⟨arguments, between', rest, -⟩ := exists_of_bind_eq_ok inside
      have same := calls_eq_size head first
      have same' := callsAll_of_evalAll tail rest
      rw [calls, count, Node.size]
      simp only [first, callsAfter, same, same']
  | array items =>
      obtain ⟨entered, left, inside, count⟩ := exists_of_metered_eq_ok found _
      obtain ⟨values, between, rest, -⟩ := exists_of_bind_eq_ok inside
      rw [calls, count, callsAll_of_evalAll items rest, Node.size]
  | symbol | number | string | unknown =>
      obtain ⟨entered, left, inside, count⟩ := exists_of_metered_eq_ok found _
      exact count

private theorem callsAll_of_evalAll {context : Context σ} (nodes : List Node)
    {machine after : Machine σ}
    {values : List Value} (found : evalAll context nodes machine = (.ok values, after)) :
    callsAll context nodes machine = Node.sizeList nodes := by
  cases nodes with
  | nil => rfl
  | cons node nodes =>
      obtain ⟨value, between, first, found⟩ := exists_of_bind_eq_ok found
      obtain ⟨others, between', rest, -⟩ := exists_of_bind_eq_ok found
      have same := calls_eq_size node first
      have same' := callsAll_of_evalAll nodes rest
      simp only [callsAll, first, callsAfter, same, same', Node.sizeList]

private theorem callsAll_of_evalLast {context : Context σ} (nodes : List Node)
    {machine after : Machine σ} {value last : Value}
    (found : evalLast context value nodes machine = (.ok last, after)) :
    callsAll context nodes machine = Node.sizeList nodes := by
  cases nodes with
  | nil => rfl
  | cons node nodes =>
      obtain ⟨value, between, first, rest⟩ := exists_of_bind_eq_ok found
      have same := calls_eq_size node first
      have same' := callsAll_of_evalLast nodes rest
      simp only [callsAll, first, callsAfter, same, same', Node.sizeList]

end

private theorem calls_pos (context : Context σ) (node : Node) (machine : Machine σ) :
    0 < calls context node machine := by
  cases node <;> (rw [calls, visitCalls]; dsimp only; split <;> omega)

/-! ## Several evaluations -/

section

variable (context : Context σ)

/-- Each tree is evaluated on the machine that those before it leave behind. -/
private theorem getElem?_evalSequence (nodes : List Node) (machine : Machine σ) (index : Nat) :
    (evalSequence context nodes machine)[index]? =
      nodes[index]?.map fun node =>
        eval context node (machineAfter context (nodes.take index) machine) := by
  induction nodes generalizing machine index with
  | nil => rfl
  | cons node nodes ih =>
      cases index with
      | zero => rfl
      | succ index => exact ih (eval context node machine).2 index

private theorem getElem?_callsSequence (nodes : List Node) (machine : Machine σ) (index : Nat) :
    (callsSequence context nodes machine)[index]? =
      nodes[index]?.map fun node =>
        calls context node (machineAfter context (nodes.take index) machine) := by
  induction nodes generalizing machine index with
  | nil => rfl
  | cons node nodes ih =>
      cases index with
      | zero => rfl
      | succ index => exact ih (eval context node machine).2 index

private theorem length_evalSequence (nodes : List Node) (machine : Machine σ) :
    (evalSequence context nodes machine).length = nodes.length := by
  induction nodes generalizing machine with
  | nil => rfl
  | cons node nodes ih => exact congrArg (· + 1) (ih (eval context node machine).2)

private theorem gas_machineAfter (nodes : List Node) {machine : Machine σ} {gas : Int}
    (budget : machine.gas = some gas) (count : Nat) :
    (machineAfter context (nodes.take count) machine).gas =
      some (gas - ((callsSequence context nodes machine).take count).sum) := by
  induction nodes generalizing machine gas count with
  | nil => simpa [callsSequence, machineAfter] using budget
  | cons node nodes ih =>
      have spent := (costs_eval context node).spends machine
      rw [budget, Option.map_some] at spent
      cases count with
      | zero => simpa [machineAfter] using budget
      | succ count =>
          have rest := ih spent count
          rw [Int.sub_sub, ← Int.natCast_add] at rest
          exact rest

end

/-! ## The budget of an evaluation -/

/-- A budget that covers the evaluations of a run without budget is charged for them, and shows in
nothing else. A smaller budget is exhausted, and what has been written by then is a beginning of
what the run without budget writes. A run that comes to a value makes one evaluation for each node.
Of several trees on one machine, each is evaluated on the machine that those before it leave behind,
and the budget sinks by the evaluations that are really made. -/
theorem eval_budget (context : Context σ) :
    (∀ (node : Node) (machine : Machine σ) (gas : Int),
      let whole := eval context node (machine.withGas none)
      let limited := eval context node (machine.withGas (some gas))
      let count := calls context node (machine.withGas none)
      (count ≤ gas → limited = (whole.1, whole.2.withGas (some (gas - count)))) ∧
      (gas < count →
        limited.1 = .error .gasExhausted ∧
        limited.2.gas = some (if 0 ≤ gas then -1 else gas - 1) ∧
        ∃ written later, limited.2.output = machine.output ++ written ∧
          whole.2.output = limited.2.output ++ later) ∧
      ((∃ value, whole.1 = .ok value) → count = node.size)) ∧
    ∀ (nodes : List Node) (machine : Machine σ) (gas : Int),
      let start := machine.withGas (some gas)
      let before (index : Nat) := machineAfter context (nodes.take index) start
      (evalSequence context nodes start).length = nodes.length ∧
      ∀ (index : Nat) (inside : index < nodes.length),
        (evalSequence context nodes start)[index]? =
          some (eval context nodes[index] (before index)) ∧
        (callsSequence context nodes start)[index]? =
          some (calls context nodes[index] (before index)) ∧
        (eval context nodes[index] (before index)).2 = before (index + 1) ∧
        (before (index + 1)).gas =
          some (gas - ((callsSequence context nodes start).take (index + 1)).sum) := by
  refine ⟨fun node machine gas => ?_, fun nodes machine gas => ?_⟩
  · intro whole limited count
    have costs := costs_eval context node
    have some : 0 < count := calls_pos context node _
    refine ⟨?_, ?_, ?_⟩
    · intro enough
      exact costs.covered machine gas (by omega)
    · intro short
      have broken := costs.breaksOff machine gas (by omega)
      obtain ⟨written, output⟩ := costs.writes (machine.withGas (.some gas))
      obtain ⟨later, rest⟩ := broken.written
      exact ⟨broken.exhausted, broken.gas, written, later, output, rest⟩
    · intro found
      obtain ⟨value, found⟩ := found
      exact calls_eq_size node (Prod.ext found rfl)
  · intro start before
    refine ⟨length_evalSequence context nodes start, fun index inside => ⟨?_, ?_, ?_, ?_⟩⟩
    · rw [getElem?_evalSequence, List.getElem?_eq_getElem inside]
      rfl
    · rw [getElem?_callsSequence, List.getElem?_eq_getElem inside]
      rfl
    · have next : nodes.take (index + 1) = nodes.take index ++ [nodes[index]] :=
        List.take_succ_eq_append_getElem inside
      simp only [before, machineAfter, next, List.foldl_append]
      rfl
    · exact gas_machineAfter context nodes rfl (index + 1)

/-- A program that writes one letter. -/
def writingProgram : Node := .expression (.symbol "печатать" 1) [.string "a" 1] true 1

/-- The standard symbols alone, on an interpreter with some room. -/
def standardContext : Context Unit where
  interpreter := { readingLimit := 500, evaluationLimit := 300, functionText := fun _ => "f" }
  host := .idle
  bindings := .standard
  maxDepth := none

theorem eval_budget_writingProgram :
    let machine : Machine Unit := ⟨⟨"", ()⟩, none, 0⟩
    (eval standardContext writingProgram (machine.withGas (some 2))).1 = .error .gasExhausted ∧
      (eval standardContext writingProgram (machine.withGas (some 2))).2.gas = some (-1) ∧
      (eval standardContext writingProgram (machine.withGas (some 5))).2.gas = some 2 ∧
      ∃ outcome, (evalSequence standardContext [writingProgram, writingProgram, writingProgram]
          (machine.withGas (some 5)))[2]? = some outcome ∧ outcome.2.gas = some (-2) := by
  intro machine
  have short := ((eval_budget standardContext).1 writingProgram machine 2).2.1 (by decide)
  have enough := ((eval_budget standardContext).1 writingProgram machine 5).1 (by decide)
  have programs :=
    (eval_budget standardContext).2 [writingProgram, writingProgram, writingProgram] machine 5
  obtain ⟨found, -, next, gas⟩ := programs.2 2 (by decide)
  exact ⟨short.1, short.2.1, by rw [enough]; rfl, _, found, (congrArg Machine.gas next).trans gas⟩

end IndentLisp
