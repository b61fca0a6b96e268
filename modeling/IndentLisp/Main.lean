import IndentLisp.CommandLine

/-!
# The program

Reads the file that the first argument names and writes the command's report.
-/

set_option autoImplicit false

namespace IndentLisp.CommandLine

/-- What is written where the command breaks off. -/
def Abort.message : Abort → String
  | noSuchFile => "No such file"
  | undecodable => "The file is not encoded in UTF-8"
  | parse error => error.message
  | layout fault => fault.message
  | run error => error.message

/-- The interpreter that the program is: its stack is known to hold as much, and functions are not
told apart. -/
def interpreter : Interpreter where
  readingLimit := 500
  evaluationLimit := 300
  functionText _ := "<function>"

/-- Writes a report and gives the exit status. -/
def Report.write (report : Report) : IO UInt32 := do
  IO.print report.standardOutput
  IO.eprint report.standardError
  match report.outcome with
  | .ok status => return status.toUInt32
  | .error abort =>
    IO.eprintln abort.message
    return 1

/-- The contents of the file that the first argument names, if it can be read. -/
def readProgram : List String → IO (Option ByteArray)
  | [] => return none
  | path :: _ => do
    try
      return some (← IO.FS.readBinFile path)
    catch _ => return none

end IndentLisp.CommandLine

def main (arguments : List String) : IO UInt32 := do
  let contents ← IndentLisp.CommandLine.readProgram arguments
  let report := IndentLisp.CommandLine.report IndentLisp.CommandLine.interpreter arguments
    fun _ => contents
  report.write
