import IndentLisp.Evaluation.Execute

/-!
# Events of a run

What happens while a program is evaluated, in its order: nodes come to values, and functions are
called with arguments. Where a run ends in an error, the last event shows what failed.
-/

set_option autoImplicit false

namespace IndentLisp

variable {σ : Type}

/-! ## What values contain -/

namespace Value

mutual

/-- Whether a value is a floating-point number or a list with one in it. -/
def hasFloat : Value → Bool
  | float _ => true
  | list items => anyFloat items
  | _ => false

def anyFloat : List Value → Bool
  | [] => false
  | item :: items => item.hasFloat || anyFloat items

end

mutual

/-- The integers in a value. -/
def integers : Value → List Int
  | int value => [value]
  | list items => integersOf items
  | _ => []

def integersOf : List Value → List Int
  | [] => []
  | item :: items => item.integers ++ integersOf items

end

end Value

/-! ## Kinds of errors -/

/-- What an embedding program can tell apart of an error. -/
inductive RunError.Kind where
  | failure (kind : FailureKind)
  | gas
  | depth
  deriving DecidableEq, Repr

def RunError.kind : RunError → Kind
  | failedCall .. | notCallable .. | unknownKind _ => .failure .evaluation
  | call error => .failure error.kind
  | noSymbols => .failure .type
  | gasExhausted => .gas
  | depthExceeded => .depth

/-! ## Events -/

inductive Event where
  /-- A node has come to a value. -/
  | valued (value : Value)
  | called (function : Value) (arguments : List Value)

/-- Whether a floating-point number shows in an event. -/
def Event.hasFloat : Event → Bool
  | valued value => value.hasFloat
  | called function arguments => function.hasFloat || Value.anyFloat arguments

/-- The events of a visit: those inside it, if no limit refuses it. -/
def visitEvents (context : Context σ) (inside : Machine σ → List Event) (machine : Machine σ) :
    List Event :=
  let charged := { machine with gas := machine.gas.map (· - 1) }
  if charged.gas.any (· < 0) || context.maxDepth.any (· < charged.depth + 1) then []
  else inside { charged with depth := charged.depth + 1 }

/-- The events that follow once a run has come to a value. -/
def eventsAfter {α : Type} (outcome : Except RunError α × Machine σ)
    (next : α → Machine σ → List Event) : List Event :=
  match outcome.1 with
  | .ok value => next value outcome.2
  | .error _ => []

/-- The events of a run, and that it comes to a value, if it does. -/
def thenValued (run : Run σ Value) (events : Machine σ → List Event) (machine : Machine σ) :
    List Event :=
  events machine ++ eventsAfter (run machine) fun value _ => [.valued value]

mutual

/-- The events of the evaluation of a tree. -/
def events (context : Context σ) : Node → Machine σ → List Event
  | .block children line =>
    thenValued (eval context (.block children line))
      (visitEvents context (eventsAll context children))
  | .expression head tail lineForm line =>
    thenValued (eval context (.expression head tail lineForm line)) <|
      visitEvents context fun machine =>
        events context head machine ++
          eventsAfter (eval context head machine) fun function machine =>
            eventsAll context tail machine ++
              eventsAfter (evalAll context tail machine) fun arguments _ =>
                [.called function arguments]
  | .array items line =>
    thenValued (eval context (.array items line)) (visitEvents context (eventsAll context items))
  | .symbol name line =>
    thenValued (eval context (.symbol name line)) (visitEvents context fun _ => [])
  | .number value line =>
    thenValued (eval context (.number value line)) (visitEvents context fun _ => [])
  | .string text line =>
    thenValued (eval context (.string text line)) (visitEvents context fun _ => [])
  | .unknown kind line =>
    thenValued (eval context (.unknown kind line)) (visitEvents context fun _ => [])

/-- The events of the evaluation of several trees, from left to right. -/
def eventsAll (context : Context σ) : List Node → Machine σ → List Event
  | [], _ => []
  | node :: nodes, machine =>
    events context node machine ++
      eventsAfter (eval context node machine) fun _ => eventsAll context nodes

end

/-- The events of the execution of a program. -/
def executionEvents (interpreter : Interpreter) (settings : Settings) (host : Host σ) (node : Node)
    (effects : Effects σ) : List Event :=
  match settings.symbols with
  | none => []
  | some symbols =>
    events (settings.context interpreter host symbols) node { effects with gas := settings.maxGas }

end IndentLisp
