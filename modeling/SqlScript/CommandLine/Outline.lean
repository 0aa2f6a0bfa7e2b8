import SqlScript.Catalog.Reference
import SqlScript.CommandLine.Command

namespace SqlScript.CommandLine

/-!
# The command that lists the objects of a script

* `outlineRules` are its options;
* `outlineJob` is what it does with its arguments.
-/

/-- The number of rows that are shown when nothing else is asked for. -/
def defaultMaxRows : Int := 50

/-- The options of the command, whose only setting is the number of rows to show. It is none when
    its option leaves it out. -/
def outlineRules : List (OptionRule (Option Int)) :=
  [helpRule (Option Int),
   ⟨["--max-rows".toList], .value fun value _ => readOptional Decimal.integer? value⟩]

/-- The answer for a script. -/
def outlineAnswer (maxRows : Option Int) (t : Text) : Except Fault Answer :=
  match (Script.ofText t).referenceTable.renderWithin maxRows with
  | .ok shown => .ok (.line success shown)
  | .error e => .error (.rowLimit e)

/-- What the command does. It needs a file. -/
def outlineJob (args : List Text) : Except Refusal Job := do
  let parsed ← readArguments outlineRules (some defaultMaxRows) args
  match parsed.file with
  | none => .error .usage
  | some name =>
    .ok ⟨.file name, fun content => outlineAnswer parsed.settings (Text.unifyLineBreaks content),
      fun _ => []⟩

end SqlScript.CommandLine
