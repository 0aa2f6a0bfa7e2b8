import SqlScript.CommandLine.Options
import SqlScript.Table.Basic

namespace SqlScript.CommandLine

/-!
# Commands

* `Source` is where a command reads its script;
* `Answer` is what it prints and the code that it exits with;
* `Fault` is why it stops without an answer;
* `Job` is a command with its arguments, which is run on the content of its source.
-/

/-- Where a script is read. -/
inductive Source where
  | standardInput
  | file (name : Text)
deriving DecidableEq

/-- What a command leaves behind. -/
structure Answer where
  exitCode : Nat
  output : Text
deriving DecidableEq

/-- Why a command stops without an answer: it needs a number and cannot use what the options say. -/
inductive Fault where
  /-- The width of an indentation was left out. -/
  | noIndentWidth
  /-- There cannot be so many rows in a table. -/
  | rowLimit (error : RowLimitError)
deriving DecidableEq

/-- Why the command stops, in words. -/
def Fault.message : Fault → String
  | noIndentWidth => "'<' not supported between instances of 'list' and 'int'"
  | rowLimit e => e.message

/-- What there is to do. -/
structure Job where
  source : Source
  /-- The answer for the content of the source. -/
  run : Text → Except Fault Answer
  /-- What there is to tell about the content, apart from the answer. -/
  remarks : Text → List String

/-- The answer with the text as a line. -/
def Answer.line (exitCode : Nat) (t : Text) : Answer := ⟨exitCode, t ++ Text.lineFeed⟩

/-- The exit code of a command that did what was asked for. -/
def success : Nat := 0

/-- The exit code of a command that cannot read its script. -/
def malformedScript : Nat := 1

/-- The exit code of a command that stops without an answer. -/
def interrupted : Nat := 1

/-- The exit code of a command whose arguments are wrong. -/
def wrongArguments : Nat := 2

/-- What a command leaves behind when it is not run. What is wrong is not printed on the standard
    output. -/
def Refusal.answer : Refusal → Answer
  | help => ⟨success, []⟩
  | usage => ⟨wrongArguments, []⟩

/-- The option that asks for an explanation. -/
def helpRule (σ : Type) : OptionRule σ := ⟨["-h".toList, "--help".toList], .help⟩

end SqlScript.CommandLine
