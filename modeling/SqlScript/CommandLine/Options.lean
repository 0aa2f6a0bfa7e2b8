import SqlScript.Text.Basic
import SqlScript.Unicode.DecimalDigit

namespace SqlScript.CommandLine

/-!
# Command line options

A command has options, which start with a dash and can be given in any order, and one file name.
What the options say is collected in settings of type `σ`.

* `OptionRule` is an option of a command;
* `classify` tells what an argument is, apart from those around it;
* `readArguments` reads the arguments of a command, or refuses them.

A long option can be shortened as long as no other one is meant, and its value can stand behind an
equals sign or be the next argument. Flags of one letter can be written together. Two dashes on
their own end the options, and behind an equals sign they leave the value out.

Arguments are read in order, and the first one that is wrong, or asks for an explanation, decides.
There are two exceptions: an option that is shortened too much is refused before anything is read,
and arguments that nothing takes are refused only after all the others were read.
-/

/-- What an option does to the settings. -/
inductive OptionAction (σ : Type) where
  /-- It stands alone. -/
  | flag (apply : σ → σ)
  /-- It has a value, which can be wrong, or can be left out. -/
  | value (apply : Option Text → σ → Option σ)
  /-- It asks for an explanation of the command. -/
  | help

/-- An option with its names, dashes included. -/
structure OptionRule (σ : Type) where
  names : List Text
  action : OptionAction σ

/-- Why a command is not run. -/
inductive Refusal where
  /-- An explanation is asked for. -/
  | help
  /-- The arguments make no sense. -/
  | usage
deriving DecidableEq

/-- The settings that were read, and the file name if there is one. -/
structure Arguments (σ : Type) where
  settings : σ
  file : Option Text
  /-- Whether there was an argument that nothing takes. -/
  hasSurplus : Bool

/-! ### Single arguments -/

/-- What an argument is. -/
inductive ArgumentClass (σ : Type) where
  /-- A file name, or the value of an option. -/
  | plain
  /-- An option, with the value that stands behind an equals sign. -/
  | option (action : OptionAction σ) (attached : Option Text)
  /-- Flags of one letter after a single dash. -/
  | flags (letters : Text)
  /-- An option that the command does not have. -/
  | unknown
  /-- The beginning of several options. -/
  | ambiguous

/-- The two dashes that end the options. -/
def endOfOptions : Text := ['-', '-']

/-- The parts before and after the first equals sign. -/
def splitEquals (t : Text) : Text × Option Text :=
  match t.dropWhile (· != '=') with
  | [] => (t, none)
  | _ :: value => (t.takeWhile (· != '='), some value)

/-- Whether the text is a sequence of decimal digits, at least one. -/
def isDigits (t : Text) : Bool := !t.isEmpty && t.all Unicode.isDecimalDigit

/-- Whether the argument looks like a negative number. -/
def isNegativeNumber : Text → Bool
  | '-' :: rest =>
    let number := if rest.getLast? == some '\n' then rest.dropLast else rest
    let whole := number.takeWhile Unicode.isDecimalDigit
    match number.drop whole.length with
    | [] => isDigits whole
    | '.' :: fraction => isDigits fraction
    | _ => false
  | _ => false

/-- The action of the option with exactly this name. -/
def named? {σ : Type} (rules : List (OptionRule σ)) (name : Text) : Option (OptionAction σ) :=
  (rules.find? fun r => r.names.contains name).map (·.action)

/-- The actions of the options with a long name that starts like this, once for each name. -/
def startingLike {σ : Type} (rules : List (OptionRule σ)) (start : Text) : List (OptionAction σ) :=
  rules.flatMap fun r => (r.names.filter start.isPrefixOf).map fun _ => r.action

/-- What an argument is that does not name an option exactly and starts with a dash. -/
def classifyShortened {σ : Type} (rules : List (OptionRule σ)) (t : Text) : ArgumentClass σ :=
  let unlikeOptions : ArgumentClass σ :=
    if isNegativeNumber t || t.contains ' ' then .plain else .unknown
  match t with
  | '-' :: '-' :: _ =>
    let (start, attached) := splitEquals t
    match startingLike rules start with
    | [] => unlikeOptions
    | [action] => .option action attached
    | _ => .ambiguous
  | '-' :: letter :: more =>
    if (named? rules ['-', letter]).isSome then .flags (letter :: more) else unlikeOptions
  | _ => .plain

/-- What an argument is that names an option before its equals sign. A flag of one letter takes no
    value, so more letters stand there. -/
def classifyAttached {σ : Type} (action : OptionAction σ) (name value : Text) : ArgumentClass σ :=
  match action, name, value with
  | .value _, _, _ => .option action (some value)
  | _, ['-', letter], _ :: _ => .flags (letter :: value)
  | _, _, _ => .option action (some value)

/-- What an argument is. -/
def classify {σ : Type} (rules : List (OptionRule σ)) (t : Text) : ArgumentClass σ :=
  if t.head? != some '-' then .plain
  else
    match named? rules t with
    | some action => .option action none
    | none =>
      match splitEquals t with
      | (name, some value) =>
        match named? rules name with
        | some action => classifyAttached action name value
        | none => classifyShortened rules t
      | (_, none) => classifyShortened rules t

/-! ### All arguments -/

/-- Whether one of the arguments before the end of the options is the beginning of several ones. -/
def hasAmbiguous {σ : Type} (rules : List (OptionRule σ)) (args : List Text) : Bool :=
  (args.takeWhile (· != endOfOptions)).any fun t =>
    match classify rules t with
    | .ambiguous => true
    | _ => false

/-- Whether the argument can be the value of the option before it. -/
def isValue {σ : Type} (rules : List (OptionRule σ)) (t : Text) : Bool :=
  t != endOfOptions &&
    match classify rules t with
    | .plain => true
    | _ => false

/-- The settings after some options without values. -/
def applyActions {σ : Type} (settings : σ) : List (OptionAction σ) → Except Refusal σ
  | [] => .ok settings
  | .flag apply :: rest => applyActions (apply settings) rest
  | .help :: _ => .error .help
  | .value _ :: _ => .error .usage

/-- The settings after flags of one letter, all of which have to be known before one is applied. -/
def applyFlags {σ : Type} (rules : List (OptionRule σ)) (settings : σ) (letters : Text) :
    Except Refusal σ :=
  match letters.mapM fun letter => named? rules ['-', letter] with
  | some actions => applyActions settings actions
  | none => .error .usage

/-- The settings after a value was given to an option. -/
def applyValue {σ : Type} (apply : Option Text → σ → Option σ) (settings : σ)
    (value : Option Text) : Except Refusal σ :=
  match apply value settings with
  | some next => .ok next
  | none => .error .usage

/-- The value as `read` understands it, unless it is left out. -/
def readOptional {α : Type} (read : Text → Option α) : Option Text → Option (Option α)
  | none => some none
  | some t => (read t).map some

/-- The value that stands behind an equals sign, none when it is left out. -/
def attachedValue (t : Text) : Option Text := if t = endOfOptions then none else some t

/-- The arguments after the options have ended. A file name can come before the end of the options
    only right before it, as `fileIsNext` tells. -/
def readFileName {σ : Type} (args : Arguments σ) (fileIsNext : Bool) :
    List Text → Except Refusal (Arguments σ)
  | [] => if args.file.isNone || fileIsNext then .ok args else .error .usage
  | [file] => if args.file.isNone then .ok { args with file := some file } else .error .usage
  | _ => .error .usage

/-- The arguments that are left, after those in `args` were read. `fileIsNext` tells that the last
    one of these was the file name. -/
def readFrom {σ : Type} (rules : List (OptionRule σ)) (args : Arguments σ) (fileIsNext : Bool) :
    List Text → Except Refusal (Arguments σ)
  | [] => if args.hasSurplus then .error .usage else .ok args
  | t :: rest =>
    if t = endOfOptions then
      if args.hasSurplus then .error .usage else readFileName args fileIsNext rest
    else
      match classify rules t with
      | .plain =>
        if args.file.isSome then readFrom rules { args with hasSurplus := true } false rest
        else readFrom rules { args with file := some t } true rest
      | .option (.flag apply) none =>
        readFrom rules { args with settings := apply args.settings } false rest
      | .option (.flag _) (some _) => .error .usage
      | .option (.value apply) (some value) => do
        let settings ← applyValue apply args.settings (attachedValue value)
        readFrom rules { args with settings } false rest
      | .option (.value apply) none =>
        match rest with
        | [] => .error .usage
        | value :: more =>
          if isValue rules value then do
            let settings ← applyValue apply args.settings (some value)
            readFrom rules { args with settings } false more
          else .error .usage
      | .option .help none => .error .help
      | .option .help (some _) => .error .usage
      | .flags letters => do
        let settings ← applyFlags rules args.settings letters
        readFrom rules { args with settings } false rest
      | .unknown => readFrom rules { args with hasSurplus := true } false rest
      | .ambiguous => .error .usage

/-- The arguments of a command, whose settings are `settings` when no option is given. -/
def readArguments {σ : Type} (rules : List (OptionRule σ)) (settings : σ) (args : List Text) :
    Except Refusal (Arguments σ) :=
  if hasAmbiguous rules args then .error .usage
  else readFrom rules ⟨settings, none, false⟩ false args

end SqlScript.CommandLine
