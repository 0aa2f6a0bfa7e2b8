import SqlScript.CommandLine.Command
import SqlScript.Layout.Page

namespace SqlScript.CommandLine

/-!
# The command that formats a script

* `FormatSettings` is what its options say, and `FormatSettings.style` the style that they ask for;
* `formatRules` are its options;
* `formatJob` is what it does with its arguments.
-/

/-! ### Settings -/

/-- The settings of the command. A setting is none when its option leaves the value out. -/
structure FormatSettings where
  indentWidth : Option Int
  keywordCase : Option LetterCase
  identifierCase : Option LetterCase
  newLineLists : Bool
  spaceBetween : Bool
  verbose : Bool
deriving DecidableEq

/-- Why the settings make no style. -/
inductive SettingsError where
  /-- A case was left out. -/
  | noCase (field : StyleField)
  /-- The width of an indentation was left out. -/
  | noIndentWidth
  /-- The style is refused. -/
  | style (error : StyleError)
deriving DecidableEq

namespace FormatSettings

/-- Neither a style nor notices are asked for. -/
def default : FormatSettings :=
  ⟨some StyleRequest.default.indentWidth, some .preserve, some .preserve, false, false, false⟩

/-- The style that the settings ask for. Cases are checked before the width. -/
def style (s : FormatSettings) : Except SettingsError Style :=
  match s.keywordCase, s.identifierCase, s.indentWidth with
  | none, _, _ => .error (.noCase .keywordCase)
  | some _, none, _ => .error (.noCase .identifierCase)
  | some _, some _, none => .error .noIndentWidth
  | some keywords, some identifiers, some width =>
    (Style.ofRequest ⟨width, keywords.name.toList, identifiers.name.toList, s.newLineLists,
      s.spaceBetween⟩).mapError .style

end FormatSettings

/-- The options of the command. -/
def formatRules : List (OptionRule FormatSettings) :=
  [helpRule FormatSettings,
   ⟨["--indent".toList], .value fun value s =>
      (readOptional Decimal.integer? value).map fun n => { s with indentWidth := n }⟩,
   ⟨["--keyword-case".toList], .value fun value s =>
      (readOptional LetterCase.ofName? value).map fun c => { s with keywordCase := c }⟩,
   ⟨["--identifier-case".toList], .value fun value s =>
      (readOptional LetterCase.ofName? value).map fun c => { s with identifierCase := c }⟩,
   ⟨["--new-line-lists".toList], .flag fun s => { s with newLineLists := true }⟩,
   ⟨["--space-between-statements".toList], .flag fun s => { s with spaceBetween := true }⟩,
   ⟨["-v".toList, "--verbose".toList], .flag fun s => { s with verbose := true }⟩]

/-! ### Input and output -/

/-- Where the command reads its script: the standard input unless a file is named. -/
def formatSource (file : Option Text) : Source :=
  match file with
  | none | some [] => .standardInput
  | some name => .file name

/-- The script as it is formatted. The line breaks of a file are kept. -/
def formatInput (source : Source) (content : Text) : Text :=
  match source with
  | .standardInput => Text.unifyLineBreaks content
  | .file _ => content

/-- The answer to settings that make no style. A case that was left out is shown as an empty
    list. -/
def SettingsError.answer : SettingsError → Except Fault Answer
  | noCase field => .ok (.line wrongArguments ("Invalid options, " ++ field.noSuchCase "[]").toList)
  | noIndentWidth => .error .noIndentWidth
  | style e => .ok (.line wrongArguments ("Invalid options, " ++ e.message).toList)

/-- The answer for a script in a style. -/
def formatAnswer (style : Style) (t : Text) : Answer :=
  match style.format t with
  | .error e => .line malformedScript ("Invalid SQL, " ++ e.message).toList
  | .ok formatted => .line success formatted

/-- What there is to tell about a script, when the settings ask for it. -/
def formatRemarks (settings : FormatSettings) (t : Text) : List String :=
  match settings.verbose, settings.style with
  | true, .ok style => ((Script.ofText t).formatNotices style).map Notice.message
  | _, _ => []

/-- What the command does. -/
def formatJob (args : List Text) : Except Refusal Job :=
  (readArguments formatRules .default args).map fun parsed =>
    let source := formatSource parsed.file
    { source
      run := fun content =>
        match parsed.settings.style with
        | .ok style => .ok (formatAnswer style (formatInput source content))
        | .error e => e.answer
      remarks := fun content => formatRemarks parsed.settings (formatInput source content) }

end SqlScript.CommandLine
