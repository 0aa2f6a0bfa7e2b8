import SqlScript.CommandLine.Format
import SqlScript.CommandLine.Outline

/-!
# The program

The first argument tells the command, and the others are its arguments. Nothing is decided here:
the source of a job is read, the job is run on it, and its answer is printed.
-/

namespace SqlScript.CommandLine

/-- The content of a source. -/
def Source.read : Source → IO String
  | .standardInput => do (← IO.getStdin).readToEnd
  | .file name => IO.FS.readFile (String.ofList name)

/-- Prints what a command leaves behind, and gives its exit code. -/
def Answer.print (answer : Answer) : IO UInt32 := do
  IO.print (String.ofList answer.output)
  return answer.exitCode.toUInt32

/-- Tells why a command stopped without an answer, and gives its exit code. -/
def Fault.report (fault : Fault) : IO UInt32 := do
  IO.eprintln fault.message
  return interrupted.toUInt32

/-- Does a job, unless its command was refused. Remarks go to the standard error output. -/
def perform : Except Refusal Job → IO UInt32
  | .error refusal => refusal.answer.print
  | .ok job => do
    let content := (← job.source.read).toList
    (job.remarks content).forM IO.eprintln
    match job.run content with
    | .ok answer => answer.print
    | .error fault => fault.report

end SqlScript.CommandLine

open SqlScript.CommandLine in
/-- Runs the command that the first argument names. -/
def main (args : List String) : IO UInt32 :=
  match args with
  | "format" :: rest => perform (formatJob (rest.map String.toList))
  | "outline" :: rest => perform (outlineJob (rest.map String.toList))
  | _ => perform (.error .usage)
