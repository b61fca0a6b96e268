import IndentLisp.Evaluation.Eval

/-!
# Evaluation without limits

What an evaluation does if no limit stops it, and the visits of nodes that it makes on the way. A
limit on gas or depth can only cut such an evaluation short, just before one of its visits.
-/

set_option autoImplicit false

namespace IndentLisp

variable {σ : Type}

/-- The visit of a node: how deep the node is, counting the root as one, and the effects up to
then. -/
structure Visit (σ : Type) where
  depth : Nat
  before : Effects σ

/-- What an evaluation without limits comes to, and its visits in their order. -/
structure Trace (σ α : Type) where
  result : Except RunError α
  effects : Effects σ
  visits : List (Visit σ)

namespace Trace

variable {α β : Type}

/-- A value without any visit. -/
def done (value : α) (effects : Effects σ) : Trace σ α := ⟨.ok value, effects, []⟩

/-- An outcome without any visit. -/
def ofOutcome (outcome : Except RunError α × Effects σ) : Trace σ α := ⟨outcome.1, outcome.2, []⟩

/-- Goes on after a value. -/
def andThen (first : Trace σ α) (next : α → Effects σ → Trace σ β) : Trace σ β :=
  match first.result with
  | .error error => ⟨.error error, first.effects, first.visits⟩
  | .ok value =>
    let second := next value first.effects
    ⟨second.result, second.effects, first.visits ++ second.visits⟩

/-- Makes an evaluation the visit of a node. -/
def visiting (depth : Nat) (effects : Effects σ) (inner : Trace σ α) : Trace σ α :=
  ⟨inner.result, inner.effects, ⟨depth, effects⟩ :: inner.visits⟩

end Trace

mutual

/-- The evaluation of a tree at the given depth. -/
def trace (context : Context σ) (depth : Nat) : Node → Effects σ → Trace σ Value
  | .block children _, effects =>
    .visiting depth effects (traceLast context (depth + 1) .nothing children effects)
  | .expression head tail _ line, effects =>
    .visiting depth effects <|
      (trace context (depth + 1) head effects).andThen fun function effects =>
        (traceAll context (depth + 1) tail effects).andThen fun arguments effects =>
          .ofOutcome (call context depth head line function arguments effects)
  | .symbol name _, effects => .visiting depth effects (.done (context.lookup name) effects)
  | .number value _, effects => .visiting depth effects (.done (.int value) effects)
  | .string text _, effects => .visiting depth effects (.done (.text text) effects)
  | .array items _, effects =>
    .visiting depth effects <|
      (traceAll context (depth + 1) items effects).andThen fun values effects =>
        .done (.list values) effects
  | .unknown kind _, effects =>
    .visiting depth effects ⟨.error (.unknownKind kind), effects, []⟩

/-- The evaluation of several trees, from left to right. -/
def traceAll (context : Context σ) (depth : Nat) :
    List Node → Effects σ → Trace σ (List Value)
  | [], effects => .done [] effects
  | node :: nodes, effects =>
    (trace context depth node effects).andThen fun value effects =>
      (traceAll context depth nodes effects).andThen fun values effects =>
        .done (value :: values) effects

/-- The evaluation of several trees for the value of the last, or for the given value if there are
none. -/
def traceLast (context : Context σ) (depth : Nat) (value : Value) :
    List Node → Effects σ → Trace σ Value
  | [], effects => .done value effects
  | node :: nodes, effects =>
    (trace context depth node effects).andThen fun value effects =>
      traceLast context depth value nodes effects

end

end IndentLisp
