import IndentLisp.Builtin.Call
import IndentLisp.Interpreter
import IndentLisp.Node

/-!
# Evaluation states

What evaluation reads and changes: the table of symbols and the limits stay as they are, while the
budget, the depth, the output and the state of the embedding program change as nodes are visited.
-/

set_option autoImplicit false

namespace IndentLisp

/-- What a program leaves behind: the text it has written and the state of the embedding
program. -/
structure Effects (σ : Type) where
  output : String
  host : σ

/-- The functions of an embedding program: how a named one is called. It may write to the output of
the program, behind what is there, and it may change the state of the embedding program. -/
structure Host (σ : Type) where
  call : String → List Value → Effects σ → Except CallError Value × Effects σ
  appends (name : String) (arguments : List Value) (effects : Effects σ) :
    ∃ written, (call name arguments effects).2.output = effects.output ++ written

/-- Functions that come to nothing and do nothing. -/
def Host.idle {σ : Type} : Host σ where
  call _ _ effects := (.ok .nothing, effects)
  appends _ _ _ := ⟨"", String.append_empty.symm⟩

/-- Symbols with their values. Of two entries for one symbol the first counts. -/
abbrev Bindings := List (String × Value)

/-- The constants and the builtin functions under their symbols. -/
def Bindings.standard : Bindings :=
  [("да", .bool true), ("нет", .bool false)]
    ++ Builtin.all.map fun function => (function.symbol, .builtin function)

/-- What stays the same while a program is evaluated. -/
structure Context (σ : Type) where
  interpreter : Interpreter
  host : Host σ
  bindings : Bindings
  maxDepth : Option Int

/-- The value of a symbol. A symbol without a value stands for nothing. -/
def Context.lookup {σ : Type} (context : Context σ) (symbol : String) : Value :=
  (context.bindings.lookup symbol).getD .nothing

/-- How many lists around one another the stack holds besides so many nodes. -/
def Context.room {σ : Type} (context : Context σ) (depth : Int) : Nat :=
  (context.interpreter.evaluationLimit - depth).toNat

/-- An evaluation state: the effects so far, the budget that is left, if there is one, and the
number of nodes that are being evaluated. -/
structure Machine (σ : Type) extends Effects σ where
  gas : Option Int
  depth : Int := 0

/-- Why evaluation ends without a value. -/
inductive RunError where
  /-- A call failed in a way that is reported with its line. -/
  | failedCall (line : Int) (error : CallError)
  /-- A call failed in a way that is reported as it is. -/
  | call (error : CallError)
  /-- The head of an expression is not a function. The symbol is that of the head, if it is one. -/
  | notCallable (line : Int) (symbol : Option String)
  | unknownKind (kind : String)
  | gasExhausted
  | depthExceeded
  | noSymbols
  deriving DecidableEq, Repr

def RunError.message : RunError → String
  | failedCall line error => "line " ++ Numeral.text line ++ ": " ++ error.message
  | call error => error.message
  | notCallable line symbol =>
    "line " ++ Numeral.text line ++ ": " ++ symbol.getD "expression" ++ " is not callable"
  | unknownKind kind => "Unknown node kind: " ++ kind
  | gasExhausted => "gas budget exceeded"
  | depthExceeded => "max nesting depth exceeded"
  | noSymbols => "'NoneType' object is not iterable"

/-- The error of a call that a program makes on the given line. -/
def RunError.ofCall (line : Int) (error : CallError) : RunError :=
  if error.located then failedCall line error else call error

/-- A computation that changes the evaluation state, also where it ends in an error. -/
abbrev Run (σ : Type) := ExceptT RunError (StateM (Machine σ))

end IndentLisp
