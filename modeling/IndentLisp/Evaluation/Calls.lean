import IndentLisp.Evaluation.Eval

/-!
# Counting evaluations

How many evaluations of nodes a run makes. Each counts, also one that a limit refuses at once; what
stands behind a failure is not evaluated and does not count.
-/

set_option autoImplicit false

namespace IndentLisp

variable {σ : Type}

/-- The evaluations of a visit: that of the node, and those inside it if no limit refuses it. -/
def visitCalls (context : Context σ) (inside : Machine σ → Nat) (machine : Machine σ) : Nat :=
  let charged := { machine with gas := machine.gas.map (· - 1) }
  if charged.gas.any (· < 0) || context.maxDepth.any (· < charged.depth + 1) then 1
  else inside { charged with depth := charged.depth + 1 } + 1

/-- The evaluations that are made once a run has come to a value. -/
def callsAfter {α : Type} (outcome : Except RunError α × Machine σ) (next : Machine σ → Nat) :
    Nat :=
  match outcome.1 with
  | .ok _ => next outcome.2
  | .error _ => 0

mutual

/-- The number of evaluations that the evaluation of a tree makes, its own included. -/
def calls (context : Context σ) : Node → Machine σ → Nat
  | .block children _ => visitCalls context (callsAll context children)
  | .expression head tail _ _ => visitCalls context fun machine =>
    calls context head machine + callsAfter (eval context head machine) (callsAll context tail)
  | .array items _ => visitCalls context (callsAll context items)
  | .symbol .. | .number .. | .string .. | .unknown .. => visitCalls context fun _ => 0

/-- The number of evaluations that are made for several trees, from left to right. -/
def callsAll (context : Context σ) : List Node → Machine σ → Nat
  | [], _ => 0
  | node :: nodes, machine =>
    calls context node machine + callsAfter (eval context node machine) (callsAll context nodes)

end

/-- The numbers of evaluations for trees that are evaluated one after the other on one machine. -/
def callsSequence (context : Context σ) : List Node → Machine σ → List Nat
  | [], _ => []
  | node :: nodes, machine =>
    calls context node machine :: callsSequence context nodes (eval context node machine).2

end IndentLisp
