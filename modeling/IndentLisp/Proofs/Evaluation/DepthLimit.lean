import IndentLisp.Evaluation.Trace
import IndentLisp.Proofs.Evaluation.Budget

/-!
# The depth limit

A limit on the depth cuts an evaluation off just before its first visit of a node that lies too
deep, and does nothing else. An evaluation that comes to a value visits the deepest nodes of its
tree, so it needs a limit as high as the tree. However an evaluation ends, it leaves the depth as it
found it.
-/

set_option autoImplicit false

namespace IndentLisp

variable {σ α β : Type}

def Context.withMaxDepth (context : Context σ) (limit : Option Int) : Context σ :=
  { context with maxDepth := limit }

/-! ## Cutting off an evaluation -/

namespace Trace

/-- The first visit of a node that lies deeper than the limit. -/
def tooDeep? (limit : Option Int) (trace : Trace σ α) : Option (Visit σ) :=
  trace.visits.find? fun visit => limit.any (· < (visit.depth : Int))

/-- What an evaluation comes to if it is cut off before the first visit that is too deep. -/
def cut (limit : Option Int) (trace : Trace σ α) : Except RunError α × Effects σ :=
  match trace.tooDeep? limit with
  | none => (trace.result, trace.effects)
  | some visit => (.error .depthExceeded, visit.before)

private theorem cut_of_visits_eq_nil {trace : Trace σ α} (none : trace.visits = [])
    (limit : Option Int) : trace.cut limit = (trace.result, trace.effects) := by
  unfold cut tooDeep?
  rw [none]
  rfl

private theorem cut_visiting (limit : Option Int) (depth : Nat) (effects : Effects σ)
    (inner : Trace σ α) :
    (visiting depth effects inner).cut limit =
      if limit.any (· < (depth : Int)) then (.error .depthExceeded, effects)
      else inner.cut limit := by
  unfold cut tooDeep? visiting
  by_cases refused : limit.any (· < (depth : Int)) = true <;> simp [refused]

/-- An evaluation in two parts is cut off in the first part or in the second. -/
private theorem cut_andThen (limit : Option Int) (first : Trace σ α)
    (next : α → Effects σ → Trace σ β) :
    (first.andThen next).cut limit =
      match first.cut limit with
      | (.error error, effects) => (.error error, effects)
      | (.ok value, effects) => (next value effects).cut limit := by
  obtain ⟨result, effects, visits⟩ := first
  cases result with
  | error error =>
      unfold andThen cut tooDeep?
      cases visits.find? fun visit => limit.any (· < (visit.depth : Int)) <;> rfl
  | ok value =>
      unfold andThen cut tooDeep?
      simp only [List.find?_append]
      cases visits.find? fun visit => limit.any (· < (visit.depth : Int)) <;> rfl

/-- A second part that visits no node adds no visit. -/
private theorem visits_andThen_step {first : Trace σ α} {next : α → Effects σ → Trace σ β}
    (step : ∀ value effects, (next value effects).visits = []) :
    (first.andThen next).visits = first.visits := by
  unfold andThen
  cases first.result with
  | error error => rfl
  | ok value =>
      dsimp only
      rw [step, List.append_nil]

/-- Without a limit nothing is cut off. -/
private theorem cut_none (trace : Trace σ α) : trace.cut none = (trace.result, trace.effects) := by
  unfold cut tooDeep?
  rw [List.find?_eq_none.mpr (by simp)]

private theorem cut_of_within {trace : Trace σ α} {limit : Int}
    (within : ∀ visit ∈ trace.visits, (visit.depth : Int) ≤ limit) :
    trace.cut (some limit) = (trace.result, trace.effects) := by
  have none : trace.tooDeep? (some limit) = none := by
    apply List.find?_eq_none.mpr
    intro visit member
    simpa using within visit member
  unfold cut
  rw [none]

private theorem cut_of_beyond {trace : Trace σ α} {limit : Int} {visit : Visit σ}
    (member : visit ∈ trace.visits) (beyond : limit < (visit.depth : Int)) :
    (trace.cut (some limit)).1 = .error .depthExceeded := by
  have found : (trace.tooDeep? (some limit)).isSome = true :=
    List.find?_isSome.mpr ⟨visit, member, by simpa using beyond⟩
  obtain ⟨first, found⟩ := Option.isSome_iff_exists.mp found
  unfold cut
  rw [found]

private theorem cut_of_first {trace : Trace σ α} {limit : Int} {earlier later : List (Visit σ)}
    {visit : Visit σ} (split : trace.visits = earlier ++ visit :: later)
    (within : ∀ other ∈ earlier, (other.depth : Int) ≤ limit)
    (beyond : limit < (visit.depth : Int)) :
    trace.cut (some limit) = (.error .depthExceeded, visit.before) := by
  have first : trace.tooDeep? (some limit) = some visit := by
    apply List.find?_eq_some_iff_append.mpr
    refine ⟨by simpa using beyond, earlier, later, split, ?_⟩
    intro other member
    simpa using within other member
  unfold cut
  rw [first]

end Trace

/-! ## Evaluations under a limit -/

/-- The machine on which so many nodes are being evaluated, without a budget. -/
def Effects.atDepth (effects : Effects σ) (depth : Int) : Machine σ :=
  { effects with gas := none, depth }

/-- Under every limit, the run does what the trace does when it is cut off there. -/
def CutsOff (depth : Nat) (run : Option Int → Run σ α) (traced : Effects σ → Trace σ α) : Prop :=
  ∀ (limit : Option Int) (effects : Effects σ),
    run limit (effects.atDepth depth) =
      (((traced effects).cut limit).1, ((traced effects).cut limit).2.atDepth depth)

section

variable {depth : Nat} {run : Option Int → Run σ α} {next : α → Option Int → Run σ β}
  {traced : Effects σ → Trace σ α} {traced' : α → Effects σ → Trace σ β}

/-- A step that visits no node does not depend on the limit. -/
private theorem CutsOff.step {run : Run σ α} (unvisited : ∀ effects, (traced effects).visits = [])
    (same : ∀ effects : Effects σ, run (effects.atDepth depth) =
      ((traced effects).result, (traced effects).effects.atDepth depth)) :
    CutsOff depth (fun _ => run) traced := by
  intro limit effects
  dsimp only
  rw [same, Trace.cut_of_visits_eq_nil (unvisited effects)]

private theorem CutsOff.pure (value : α) :
    CutsOff depth (fun _ => (pure value : Run σ α)) (.done value) :=
  .step (fun _ => rfl) fun _ => rfl

private theorem CutsOff.throw (error : RunError) :
    CutsOff depth (fun _ => (throw error : Run σ α)) fun effects => ⟨.error error, effects, []⟩ :=
  .step (fun _ => rfl) fun _ => rfl

private theorem CutsOff.bind (cutsOff : CutsOff depth run traced)
    (cutsOff' : ∀ value, CutsOff depth (next value) (traced' value)) :
    CutsOff depth (fun limit => run limit >>= fun value => next value limit)
      fun effects => (traced effects).andThen traced' := by
  intro limit effects
  have first := cutsOff limit effects
  dsimp only
  rw [run_bind, first, Trace.cut_andThen]
  rcases (traced effects).cut limit with ⟨_ | value, after⟩
  · rfl
  · exact cutsOff' value limit after

private theorem CutsOff.metered (context : Context σ) (cutsOff : CutsOff (depth + 1) run traced) :
    CutsOff depth (fun limit => metered (context.withMaxDepth limit) (run limit))
      fun effects => .visiting (depth + 1) effects (traced effects) := by
  intro limit effects
  have inside := cutsOff limit effects
  have entered : (effects.atDepth depth).enter = effects.atDepth (depth + 1 : Nat) := rfl
  have free := metered_free (context.withMaxDepth limit) (run limit) (effects.atDepth depth)
  have start : (effects.atDepth depth).withGas none = effects.atDepth depth := rfl
  have unlimited : (effects.atDepth (depth + 1 : Nat)).withGas none =
      effects.atDepth (depth + 1 : Nat) := rfl
  rw [start, entered, unlimited, inside] at free
  dsimp only
  rw [free, Trace.cut_visiting]
  unfold Context.tooDeep
  change (if limit.any (· < ((depth + 1 : Nat) : Int)) = true then _ else _) = _
  split
  · rfl
  · have left : Machine.leave (((traced effects).cut limit).2.atDepth (depth + 1 : Nat)) =
        ((traced effects).cut limit).2.atDepth depth := by
      unfold Machine.leave Effects.atDepth
      simp
    rw [left]

end

mutual

private theorem cutsOff_eval (context : Context σ) (node : Node) (depth : Nat) :
    CutsOff depth (fun limit => eval (context.withMaxDepth limit) node)
      (trace context (depth + 1) node) := by
  cases node with
  | block children line =>
      exact (cutsOff_evalLast context children (depth + 1) .nothing).metered context
  | expression head tail lineForm line =>
      have call (function : Value) (arguments : List Value) :
          CutsOff (depth + 1) (fun _ => apply context head line function arguments)
            fun effects => .ofOutcome
              (call context (depth + 1 : Nat) head line function arguments effects) :=
        .step (fun _ => rfl) fun _ => rfl
      have arguments (function : Value) :=
        (cutsOff_evalAll context tail (depth + 1)).bind (call function)
      exact ((cutsOff_eval context head (depth + 1)).bind arguments).metered context
  | array items line =>
      have values := (cutsOff_evalAll context items (depth + 1)).bind fun values =>
        .pure (Value.list values)
      exact values.metered context
  | symbol name line => exact (CutsOff.pure (context.lookup name)).metered context
  | number value line => exact (CutsOff.pure (Value.int value)).metered context
  | string text line => exact (CutsOff.pure (Value.text text)).metered context
  | unknown kind line => exact (CutsOff.throw (.unknownKind kind)).metered context

private theorem cutsOff_evalAll (context : Context σ) (nodes : List Node) (depth : Nat) :
    CutsOff depth (fun limit => evalAll (context.withMaxDepth limit) nodes)
      (traceAll context (depth + 1) nodes) := by
  cases nodes with
  | nil => exact .pure []
  | cons node nodes =>
      have others (value : Value) := (cutsOff_evalAll context nodes depth).bind fun values =>
        .pure (value :: values)
      exact (cutsOff_eval context node depth).bind others

private theorem cutsOff_evalLast (context : Context σ) (nodes : List Node) (depth : Nat)
    (value : Value) :
    CutsOff depth (fun limit => evalLast (context.withMaxDepth limit) value nodes)
      (traceLast context (depth + 1) value nodes) := by
  cases nodes with
  | nil => exact .pure value
  | cons node nodes =>
      exact (cutsOff_eval context node depth).bind fun value =>
        cutsOff_evalLast context nodes depth value

end

/-! ## The depths of visits -/

private theorem Node.height_pos (node : Node) : 0 < node.height := by
  cases node <;> exact Nat.succ_pos _

/-- The visits go from the given depth down to the given height and no further, and if the
evaluation comes to a value they get there. -/
structure Spans (depth height : Nat) (trace : Trace σ α) : Prop where
  within : ∀ visit ∈ trace.visits, depth ≤ visit.depth ∧ visit.depth < depth + height
  reaches : (∃ value, trace.result = .ok value) →
    ∀ level, depth ≤ level → level < depth + height → ∃ visit ∈ trace.visits, visit.depth = level

section

variable {depth height height' : Nat}

private theorem Spans.of_visits_eq_nil {trace : Trace σ α} (none : trace.visits = []) :
    Spans depth 0 trace := by
  constructor
  · intro visit member
    rw [none] at member
    cases member
  · intro _ level above below
    omega

private theorem Spans.andThen {first : Trace σ α} {next : α → Effects σ → Trace σ β}
    (spans : Spans depth height first)
    (spans' : ∀ value effects, Spans depth height' (next value effects)) :
    Spans depth (max height height') (first.andThen next) := by
  unfold Trace.andThen
  cases found : first.result with
  | error error =>
      constructor
      · intro visit member
        have bounds := spans.within visit member
        omega
      · intro succeeded
        obtain ⟨value, succeeded⟩ := succeeded
        cases succeeded
  | ok value =>
      have second := spans' value first.effects
      constructor
      · intro visit member
        rcases List.mem_append.mp member with early | late
        · have bounds := spans.within visit early
          omega
        · have bounds := second.within visit late
          omega
      · intro succeeded level above below
        by_cases early : level < depth + height
        · obtain ⟨visit, member, same⟩ := spans.reaches ⟨value, found⟩ level above early
          exact ⟨visit, List.mem_append_left _ member, same⟩
        · obtain ⟨visit, member, same⟩ := second.reaches succeeded level above (by omega)
          exact ⟨visit, List.mem_append_right _ member, same⟩

private theorem Spans.visiting {inner : Trace σ α} (spans : Spans (depth + 1) height inner)
    (effects : Effects σ) : Spans depth (height + 1) (.visiting depth effects inner) := by
  constructor
  · intro visit member
    rcases List.mem_cons.mp member with here | inside
    · subst here
      dsimp only
      omega
    · have bounds := spans.within visit inside
      omega
  · intro succeeded level above below
    by_cases here : level = depth
    · exact ⟨⟨depth, effects⟩, List.mem_cons_self, here.symm⟩
    · obtain ⟨visit, member, same⟩ := spans.reaches succeeded level (by omega) (by omega)
      exact ⟨visit, List.mem_cons_of_mem _ member, same⟩

/-- What comes after the last visit adds none. -/
private theorem Spans.andThen_step {first : Trace σ α} (spans : Spans depth height first)
    (next : α → Effects σ → Trace σ β) (step : ∀ value effects, (next value effects).visits = []) :
    Spans depth height (first.andThen next) := by
  have last (value : α) (effects : Effects σ) : Spans depth 0 (next value effects) :=
    .of_visits_eq_nil (step value effects)
  have both := spans.andThen last
  rwa [Nat.max_zero] at both

end

mutual

private theorem spans_trace (context : Context σ) (node : Node) (depth : Nat)
    (effects : Effects σ) :
    Spans depth node.height (trace context depth node effects) := by
  cases node with
  | block children line =>
      exact (spans_traceLast context children (depth + 1) .nothing effects).visiting effects
  | expression head tail lineForm line =>
      have arguments (function : Value) (effects : Effects σ) :=
        (spans_traceAll context tail (depth + 1) effects).andThen_step
          (fun arguments effects =>
            .ofOutcome (call context depth head line function arguments effects))
          fun _ _ => rfl
      exact ((spans_trace context head (depth + 1) effects).andThen arguments).visiting effects
  | array items line =>
      have values := (spans_traceAll context items (depth + 1) effects).andThen_step
        (fun values => .done (Value.list values)) fun _ _ => rfl
      exact values.visiting effects
  | symbol | number | string | unknown => exact (Spans.of_visits_eq_nil rfl).visiting effects

private theorem spans_traceAll (context : Context σ) (nodes : List Node) (depth : Nat)
    (effects : Effects σ) :
    Spans depth (Node.heightList nodes) (traceAll context depth nodes effects) := by
  cases nodes with
  | nil => exact .of_visits_eq_nil rfl
  | cons node nodes =>
      have others (value : Value) (effects : Effects σ) :=
        (spans_traceAll context nodes depth effects).andThen_step
          (fun values => .done (value :: values)) fun _ _ => rfl
      exact (spans_trace context node depth effects).andThen others

private theorem spans_traceLast (context : Context σ) (nodes : List Node) (depth : Nat)
    (value : Value) (effects : Effects σ) :
    Spans depth (Node.heightList nodes) (traceLast context depth value nodes effects) := by
  cases nodes with
  | nil => exact .of_visits_eq_nil rfl
  | cons node nodes =>
      exact (spans_trace context node depth effects).andThen fun value effects =>
        spans_traceLast context nodes depth value effects

end

/-! ## The depth of the machine -/

/-- However the run ends, the depth is what it was. -/
def KeepsDepth (run : Run σ α) : Prop :=
  ∀ machine : Machine σ, (run machine).2.depth = machine.depth

private theorem KeepsDepth.bind {first : Run σ α} {next : α → Run σ β} (keeps : KeepsDepth first)
    (keeps' : ∀ value, KeepsDepth (next value)) : KeepsDepth (first >>= next) := by
  intro machine
  have same := keeps machine
  rcases found : first machine with ⟨_ | value, after⟩
  · rw [run_bind_error found]
    rwa [found] at same
  · rw [found] at same
    rw [run_bind_ok found, keeps' value after, same]

private theorem KeepsDepth.metered {visit : Run σ α} (keeps : KeepsDepth visit)
    (context : Context σ) :
    KeepsDepth (metered context visit) := by
  intro machine
  unfold IndentLisp.metered
  dsimp only
  split
  · rfl
  · split
    · rfl
    · -- The visit gives back the depth it was entered with, which is one more.
      change (visit _).2.depth - 1 = machine.depth
      rw [keeps]
      exact Int.add_sub_cancel machine.depth 1

mutual

theorem keepsDepth_eval (context : Context σ) (node : Node) : KeepsDepth (eval context node) := by
  cases node with
  | block children line => exact (keepsDepth_evalLast context children .nothing).metered context
  | expression head tail lineForm line =>
      refine (KeepsDepth.bind (keepsDepth_eval context head) fun function => ?_).metered context
      exact (keepsDepth_evalAll context tail).bind fun arguments machine => rfl
  | array items line =>
      refine KeepsDepth.metered ?_ context
      exact (keepsDepth_evalAll context items).bind fun values machine => rfl
  | symbol | number | string | unknown => exact KeepsDepth.metered (fun machine => rfl) context

theorem keepsDepth_evalAll (context : Context σ) (nodes : List Node) :
    KeepsDepth (evalAll context nodes) := by
  cases nodes with
  | nil => exact fun machine => rfl
  | cons node nodes =>
      refine (keepsDepth_eval context node).bind fun value => ?_
      exact (keepsDepth_evalAll context nodes).bind fun values machine => rfl

private theorem keepsDepth_evalLast (context : Context σ) (nodes : List Node) (value : Value) :
    KeepsDepth (evalLast context value nodes) := by
  cases nodes with
  | nil => exact fun machine => rfl
  | cons node nodes =>
      exact (keepsDepth_eval context node).bind fun value =>
        keepsDepth_evalLast context nodes value

end

/-! ## The number of visits -/

/-- The run makes as many evaluations as the trace lists visits. -/
def Counts (depth : Nat) (cost : Machine σ → Nat) (traced : Effects σ → Trace σ α) : Prop :=
  ∀ effects : Effects σ, cost (effects.atDepth depth) = (traced effects).visits.length

/-- Without a limit, an evaluation does all that its trace does. -/
private theorem CutsOff.unlimited {depth : Nat} {run : Option Int → Run σ α}
    {traced : Effects σ → Trace σ α} (cutsOff : CutsOff depth run traced) (effects : Effects σ) :
    run none (effects.atDepth depth) =
      ((traced effects).result, (traced effects).effects.atDepth depth) := by
  rw [cutsOff none effects, Trace.cut_none]

section

variable {depth : Nat} {cost cost' : Machine σ → Nat} {traced : Effects σ → Trace σ α}
  {traced' : α → Effects σ → Trace σ β}

private theorem Counts.bind {run : Option Int → Run σ α} (counts : Counts depth cost traced)
    (cutsOff : CutsOff depth run traced) (counts' : ∀ value, Counts depth cost' (traced' value)) :
    Counts depth (fun machine => cost machine + callsAfter (run none machine) cost')
      fun effects => (traced effects).andThen traced' := by
  intro effects
  dsimp only
  rw [counts effects, cutsOff.unlimited effects]
  unfold Trace.andThen callsAfter
  cases (traced effects).result with
  | error error => rfl
  | ok value =>
      dsimp only
      rw [counts' value, List.length_append]

private theorem Counts.andThen_step (counts : Counts depth cost traced)
    (traced' : α → Effects σ → Trace σ β)
    (step : ∀ value effects, (traced' value effects).visits = []) :
    Counts depth cost fun effects => (traced effects).andThen traced' := by
  intro effects
  dsimp only
  rw [counts effects, Trace.visits_andThen_step step]

private theorem Counts.visiting (counts : Counts (depth + 1) cost traced) (context : Context σ) :
    Counts depth (visitCalls (context.withMaxDepth none) cost)
      fun effects => .visiting (depth + 1) effects (traced effects) :=
  fun effects => congrArg (· + 1) (counts effects)

end

mutual

private theorem counts_calls (context : Context σ) (node : Node) (depth : Nat) :
    Counts depth (calls (context.withMaxDepth none) node) (trace context (depth + 1) node) := by
  cases node with
  | block children line =>
      exact (counts_callsAll_last context children (depth + 1) .nothing).visiting context
  | expression head tail lineForm line =>
      have arguments (function : Value) := (counts_callsAll context tail (depth + 1)).andThen_step
        (fun arguments effects =>
          .ofOutcome (call context (depth + 1 : Nat) head line function arguments effects))
        fun _ _ => rfl
      exact ((counts_calls context head (depth + 1)).bind
        (cutsOff_eval context head (depth + 1)) arguments).visiting context
  | array items line =>
      have values := (counts_callsAll context items (depth + 1)).andThen_step
        (fun values => .done (Value.list values)) fun _ _ => rfl
      exact values.visiting context
  | symbol | number | string | unknown =>
      exact fun effects => rfl

private theorem counts_callsAll (context : Context σ) (nodes : List Node) (depth : Nat) :
    Counts depth (callsAll (context.withMaxDepth none) nodes)
      (traceAll context (depth + 1) nodes) := by
  cases nodes with
  | nil => exact fun effects => rfl
  | cons node nodes =>
      have others (value : Value) := (counts_callsAll context nodes depth).andThen_step
        (fun values => .done (value :: values)) fun _ _ => rfl
      exact (counts_calls context node depth).bind (cutsOff_eval context node depth) others

private theorem counts_callsAll_last (context : Context σ) (nodes : List Node) (depth : Nat)
    (value : Value) :
    Counts depth (callsAll (context.withMaxDepth none) nodes)
      (traceLast context (depth + 1) value nodes) := by
  cases nodes with
  | nil => exact fun effects => rfl
  | cons node nodes =>
      exact (counts_calls context node depth).bind (cutsOff_eval context node depth)
        fun value => counts_callsAll_last context nodes depth value

end

/-! ## The limit of an evaluation -/

/-- Under a limit that is no lower than the tree, an evaluation does all that its trace does. -/
theorem eval_of_height_le (context : Context σ) {node : Node} {limit : Int}
    (enough : (node.height : Int) ≤ limit) (effects : Effects σ) :
    eval (context.withMaxDepth (some limit)) node (effects.atDepth 0) =
      ((trace context 1 node effects).result,
        (trace context 1 node effects).effects.atDepth 0) := by
  have stopped := cutsOff_eval context node 0 (some limit) effects
  have spans := spans_trace context node 1 effects
  have within : ∀ visit ∈ (trace context 1 node effects).visits, (visit.depth : Int) ≤ limit := by
    intro visit member
    have bounds := spans.within visit member
    omega
  rw [Trace.cut_of_within within] at stopped
  exact stopped

/-- An evaluation without a limit does what its trace does. Under a limit it does the same, as long
as it visits no node below the limit, which it does not if the tree is no higher. Otherwise it is
refused with the effects that it has just before the first such visit. A tree that has a value has
it under exactly the limits that are no lower than the tree. With or without limit and budget, and
whatever becomes of it, an evaluation leaves the depth as it was. -/
theorem eval_maxDepth (context : Context σ) :
    (∀ (node : Node) (effects : Effects σ) (limit : Int),
      let unlimited := eval (context.withMaxDepth none) node (effects.atDepth 0)
      let limited := eval (context.withMaxDepth (some limit)) node (effects.atDepth 0)
      let traced := trace context 1 node effects
      (unlimited = (traced.result, traced.effects.atDepth 0) ∧
        traced.visits.length = calls (context.withMaxDepth none) node (effects.atDepth 0)) ∧
      ((∀ visit ∈ traced.visits, (visit.depth : Int) ≤ limit) → limited = unlimited) ∧
      (∀ earlier visit later, traced.visits = earlier ++ visit :: later →
        (∀ other ∈ earlier, (other.depth : Int) ≤ limit) → limit < (visit.depth : Int) →
        limited = (.error .depthExceeded, visit.before.atDepth 0)) ∧
      ((node.height : Int) ≤ limit → limited = unlimited) ∧
      ((∃ value, unlimited.1 = .ok value) →
        ((∃ value, limited.1 = .ok value) ↔ (node.height : Int) ≤ limit))) ∧
    ∀ (node : Node) (machine : Machine σ), (eval context node machine).2.depth = machine.depth := by
  refine ⟨fun node effects limit => ?_, fun node machine => keepsDepth_eval context node machine⟩
  intro unlimited limited traced
  have whole : unlimited = (traced.result, traced.effects.atDepth 0) :=
    (cutsOff_eval context node 0).unlimited effects
  have stopped : limited =
      ((traced.cut (some limit)).1, (traced.cut (some limit)).2.atDepth 0) :=
    cutsOff_eval context node 0 (some limit) effects
  have spans : Spans 1 node.height traced := spans_trace context node 1 effects
  have same (within : ∀ visit ∈ traced.visits, (visit.depth : Int) ≤ limit) :
      limited = unlimited := by
    rw [stopped, whole, Trace.cut_of_within within]
  have high (enough : (node.height : Int) ≤ limit) : limited = unlimited := by
    apply same
    intro visit member
    have bounds := spans.within visit member
    omega
  refine ⟨⟨whole, (counts_calls context node 0 effects).symm⟩, same, ?_, high, ?_⟩
  · intro earlier visit later split within beyond
    rw [stopped, Trace.cut_of_first split within beyond]
  · intro found
    constructor
    · intro succeeded
      obtain ⟨value, succeeded⟩ := succeeded
      -- A lower limit would refuse the visit of the deepest node.
      apply Int.not_lt.mp
      intro low
      have some := node.height_pos
      rw [whole] at found
      obtain ⟨visit, member, deepest⟩ := spans.reaches found node.height (by omega) (by omega)
      have refused := Trace.cut_of_beyond member (deepest.symm ▸ low)
      rw [stopped, refused] at succeeded
      cases succeeded
    · intro enough
      rw [high enough]
      exact found

theorem eval_maxDepth_writingProgram :
    let start : Machine Unit := Effects.atDepth ⟨"", ()⟩ 0
    (eval (standardContext.withMaxDepth (some 2)) writingProgram start).1 = .ok (.text "a") ∧
      eval (standardContext.withMaxDepth (some 1)) writingProgram start =
        (.error .depthExceeded, start) := by
  intro start
  have spec := (eval_maxDepth standardContext).1 writingProgram ⟨"", ()⟩
  have whole : (eval (standardContext.withMaxDepth none) writingProgram start).1 =
      .ok (.text "a") := by rw [(spec 0).1.1]; rfl
  constructor
  · rw [(spec 2).2.2.2.1 (by decide)]
    exact whole
  · exact (spec 1).2.2.1 [⟨1, ⟨"", ()⟩⟩] ⟨2, ⟨"", ()⟩⟩ [⟨2, ⟨"", ()⟩⟩] rfl
      (by simp) (by decide)

end IndentLisp
