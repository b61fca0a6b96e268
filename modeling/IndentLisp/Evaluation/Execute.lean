import IndentLisp.Evaluation.Eval
import IndentLisp.Parse

/-!
# Executing programs

An execution evaluates one tree with a fresh budget. Whatever the settings say, it follows the tree
only as deep as the stack of the interpreter holds. A session executes programs one after the other
with the same settings; only their effects carry over.
-/

set_option autoImplicit false

namespace IndentLisp

/-- What an execution can be told. The symbols are added to the standard ones and take precedence.
A limit that is not there is not enforced. -/
structure Settings where
  symbols : Option Bindings := some []
  maxGas : Option Int := none
  maxDepth : Option Int := none

/-- Settings as a table in which each entry may be missing or empty. The budget has two entries. -/
structure SettingsTable where
  symbols : Option Bindings := none
  gas : Option (Option Int) := none
  /-- The budget that counts if the first entry is missing. An empty first entry is none. -/
  gasOtherwise : Option (Option Int) := none
  depth : Option (Option Int) := none

def SettingsTable.toSettings (table : SettingsTable) : Settings where
  symbols := some (table.symbols.getD [])
  maxGas := (table.gas.or table.gasOtherwise).getD none
  maxDepth := table.depth.getD none

/-- A depth at which the stack is full is as good as one that the settings do not allow. -/
def Settings.context {σ : Type} (settings : Settings) (interpreter : Interpreter) (host : Host σ)
    (symbols : Bindings) : Context σ where
  interpreter := interpreter
  host := host
  bindings := symbols ++ Bindings.standard
  maxDepth :=
    some (min interpreter.evaluationLimit (settings.maxDepth.getD interpreter.evaluationLimit))

/-- The error of an execution whose evaluation ends in the given one: where the stack has been full,
that is an excessive depth, too. -/
def RunError.ofExecution : RunError → RunError
  | call error => if error.kind = .recursion then depthExceeded else call error
  | error => error

def execute {σ : Type} (interpreter : Interpreter) (settings : Settings) (host : Host σ)
    (node : Node) (effects : Effects σ) : Except RunError Value × Effects σ :=
  match settings.symbols with
  | none => (.error .noSymbols, effects)
  | some symbols =>
    let start : Machine σ := { effects with gas := settings.maxGas }
    let (result, machine) := eval (settings.context interpreter host symbols) node start
    (result.mapError .ofExecution, machine.toEffects)

/-- What becomes of one program of a session. -/
inductive SessionStep where
  /-- The source text has no tree. -/
  | refused (error : ParseError)
  /-- The program was executed; the output is that of the whole session so far. -/
  | executed (result : Except RunError Value) (output : String)

def session {σ : Type} (interpreter : Interpreter) (settings : Settings) (host : Host σ) :
    List String → Effects σ → List SessionStep
  | [], _ => []
  | source :: sources, effects =>
    match parse interpreter.readingLimit source with
    | .error error => .refused error :: session interpreter settings host sources effects
    | .ok node =>
      let (result, effects) := execute interpreter settings host node effects
      .executed result effects.output :: session interpreter settings host sources effects

end IndentLisp
