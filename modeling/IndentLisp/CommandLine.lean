import IndentLisp.Evaluation.Execute
import IndentLisp.Layout

/-!
# The command

The command takes the path of a program, shows the program in its written form, and executes it
with the standard symbols. What it does is a report: a status and two texts.
-/

set_option autoImplicit false

namespace IndentLisp.CommandLine

inductive Abort where
  | noSuchFile
  | undecodable
  | parse (error : ParseError)
  | layout (fault : LayoutFault)
  | run (error : RunError)
  deriving DecidableEq, Repr

/-- How the command ended: with a status, or broken off. -/
structure Report where
  outcome : Except Abort Nat
  standardOutput : String := ""
  standardError : String := ""

/-- Whether an error of a program ends the command in good order. -/
def reported : RunError → Bool
  | .failedCall .. | .notCallable .. | .unknownKind _ | .gasExhausted | .depthExceeded => true
  | .call error => error.kind == .evaluation
  | .noSymbols => false

section

variable (interpreter : Interpreter)

/-- Shows a program and executes it. -/
def reportProgram (node : Node) : Report :=
  match node.format with
  | .error fault => { outcome := .error (.layout fault) }
  | .ok text =>
    let shown := text ++ "\n\nExecuting...\n\n"
    match execute interpreter {} Host.idle node ⟨shown, ()⟩ with
    | (.ok _, effects) =>
      { outcome := .ok 0, standardOutput := effects.output ++ "\nFinished\n\n" }
    | (.error error, effects) =>
      if reported error then
        { outcome := .ok 1
          standardOutput := effects.output
          standardError := "\nRuntime error: " ++ error.message ++ "\n" }
      else { outcome := .error (.run error), standardOutput := effects.output }

/-- Reads a source text and goes on with its tree. -/
def reportSource (source : String) : Report :=
  match parse interpreter.readingLimit source with
  | .ok node => reportProgram interpreter node
  | .error (.diagnosed diagnostic) =>
    { outcome := .ok 1
      standardError := "Parse error on line " ++ Numeral.text diagnostic.line ++ ": "
        ++ diagnostic.problem.message ++ "\n" }
  | .error error => { outcome := .error (.parse error) }

/-- The report on the given arguments, of which only the first counts. Files are looked up by their
paths. -/
def report (arguments : List String) (contents : String → Option ByteArray) : Report :=
  match arguments with
  | [] => { outcome := .ok 1, standardError := "Usage: python -m tablisp <program>\n" }
  | path :: _ =>
    match contents path with
    | none => { outcome := .error .noSuchFile }
    | some bytes =>
      match String.fromUTF8? bytes with
      | none => { outcome := .error .undecodable }
      | some text => reportSource interpreter (String.ofList (withLineFeeds text.toList))

end

end IndentLisp.CommandLine
