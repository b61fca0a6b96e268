import IndentLisp.Evaluation.Machine

/-!
# Evaluating trees

Every visit of a node costs one unit of gas and is one level deeper than the visit of the node
around it. The depth is given back however the visit ends; gas is not, and goes on falling when the
budget has been used up.
-/

set_option autoImplicit false

namespace IndentLisp

variable {σ : Type}

/-- Makes a computation the visit of one node: it is charged, checked against the limits and run one
level deeper. The budget is checked first. -/
def metered {α : Type} (context : Context σ) (visit : Run σ α) : Run σ α := fun machine =>
  let charged := { machine with gas := machine.gas.map (· - 1) }
  if charged.gas.any (· < 0) then (.error .gasExhausted, charged)
  else if context.maxDepth.any (· < charged.depth + 1) then (.error .depthExceeded, charged)
  else
    let (result, after) := visit { charged with depth := charged.depth + 1 }
    (result, { after with depth := after.depth - 1 })

def Node.symbolName? : Node → Option String
  | symbol name _ => some name
  | _ => none

/-- Calls a value with arguments, for an expression with the given head and line at the given depth.
A call has effects but takes no part in metering. -/
def call (context : Context σ) (depth : Int) (head : Node) (line : Int) (function : Value)
    (arguments : List Value) (effects : Effects σ) : Except RunError Value × Effects σ :=
  match function with
  | .builtin builtin =>
    match builtin.call context.interpreter.functionText (context.room depth) arguments with
    | .ok (value, written) => (.ok value, { effects with output := effects.output ++ written })
    | .error error => (.error (.ofCall line error), effects)
  | .host name =>
    let (result, effects) := context.host.call name arguments effects
    (result.mapError (.ofCall line), effects)
  | _ => (.error (.notCallable line head.symbolName?), effects)

def apply (context : Context σ) (head : Node) (line : Int) (function : Value)
    (arguments : List Value) : Run σ Value := fun machine =>
  let (result, effects) :=
    call context machine.depth head line function arguments machine.toEffects
  (result, { machine with toEffects := effects })

mutual

def eval (context : Context σ) : Node → Run σ Value
  | .block children _ => metered context (evalLast context .nothing children)
  | .expression head tail _ line => metered context do
    let function ← eval context head
    let arguments ← evalAll context tail
    apply context head line function arguments
  | .symbol name _ => metered context (pure (context.lookup name))
  | .number value _ => metered context (pure (.int value))
  | .string text _ => metered context (pure (.text text))
  | .array items _ => metered context do
    return .list (← evalAll context items)
  | .unknown kind _ => metered context (throw (.unknownKind kind))

def evalAll (context : Context σ) : List Node → Run σ (List Value)
  | [] => pure []
  | node :: nodes => do
    let value ← eval context node
    let values ← evalAll context nodes
    return value :: values

/-- The value of the last of several trees, or the given value if there are none. -/
def evalLast (context : Context σ) (value : Value) : List Node → Run σ Value
  | [] => pure value
  | node :: nodes => do
    let value ← eval context node
    evalLast context value nodes

end

/-- Evaluates trees one after the other on one machine, whatever becomes of each. Gives each result
with the machine behind it. -/
def evalSequence (context : Context σ) :
    List Node → Machine σ → List (Except RunError Value × Machine σ)
  | [], _ => []
  | node :: nodes, machine =>
    let step := eval context node machine
    step :: evalSequence context nodes step.2

/-- The machine behind such evaluations. -/
def machineAfter (context : Context σ) (nodes : List Node) (machine : Machine σ) : Machine σ :=
  nodes.foldl (fun machine node => (eval context node machine).2) machine

end IndentLisp
