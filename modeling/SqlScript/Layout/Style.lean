import SqlScript.Text.Quoted
import SqlScript.Decimal.Integer
import SqlScript.Token.Basic
import SqlScript.Unicode.Lowercase

namespace SqlScript

/-!
# Styles

What can be chosen about the way a script is formatted.

* `Spacing` decides where lines break and how far they are indented;
* `Casing` decides the case of words;
* `Style` is a complete choice, and `StyleRequest` one that was not yet checked;
* `Style.ofRequest` accepts a request, or tells with a `StyleError` what is wrong with it.
-/

/-! ### Cases -/

/-- What is done with the case of a word. -/
inductive LetterCase where
  | preserve | upper | lower
deriving DecidableEq

namespace LetterCase

/-- The name of the choice. -/
def name : LetterCase → String
  | preserve => "preserve"
  | upper => "upper"
  | lower => "lower"

/-- The choices, in the order in which they are listed. -/
def all : List LetterCase := [preserve, upper, lower]

/-- The choice with the given name. -/
def ofName? (t : Text) : Option LetterCase := all.find? fun c => c.name.toList == t

/-- The text in the chosen case. -/
def apply : LetterCase → Text → Text
  | preserve, t => t
  | upper, t => Unicode.upper t
  | lower, t => Unicode.lower t

end LetterCase

/-- The cases of the words of a script. -/
structure Casing where
  /-- The case of all that is not named below. -/
  keywords : LetterCase
  /-- The case of words that are neither verbs nor introduce a clause. -/
  identifiers : LetterCase
deriving DecidableEq

/-- Whether tokens of the kind are written as they are, in whatever case. -/
def Kind.keepsCase : Kind → Bool
  | .delimited | .string | .number | .comment => true
  | _ => false

/-- The text of a token in the chosen cases. -/
def Casing.apply (c : Casing) (t : Token) : Text :=
  if t.kind.keepsCase then t.text
  else if t.kind = .word then c.identifiers.apply t.text
  else c.keywords.apply t.text

/-! ### Styles -/

/-- Where lines break and how far they are indented. -/
structure Spacing where
  /-- The number of spaces of one level. -/
  indentWidth : Nat
  /-- Whether each element of a list starts a line. -/
  newLineLists : Bool
deriving DecidableEq

/-- A way to format scripts. -/
structure Style where
  spacing : Spacing
  casing : Casing
  /-- Whether an empty line separates statements with different verbs. -/
  spaceBetween : Bool
deriving DecidableEq

/-- A way to format scripts as it is asked for. -/
structure StyleRequest where
  indentWidth : Int
  keywordCase : Text
  identifierCase : Text
  newLineLists : Bool
  spaceBetween : Bool
deriving DecidableEq

/-- The request that is made when nothing is asked for. -/
def StyleRequest.default : StyleRequest :=
  ⟨4, LetterCase.preserve.name.toList, LetterCase.preserve.name.toList, false, false⟩

/-- Some of the choices of a request. -/
structure StyleChange where
  indentWidth : Option Int
  keywordCase : Option Text
  identifierCase : Option Text
  newLineLists : Option Bool
  spaceBetween : Option Bool
deriving DecidableEq

/-- The request with some choices replaced. -/
def StyleRequest.change (r : StyleRequest) (c : StyleChange) : StyleRequest where
  indentWidth := c.indentWidth.getD r.indentWidth
  keywordCase := c.keywordCase.getD r.keywordCase
  identifierCase := c.identifierCase.getD r.identifierCase
  newLineLists := c.newLineLists.getD r.newLineLists
  spaceBetween := c.spaceBetween.getD r.spaceBetween

/-! ### Requests that are refused -/

/-- The names of the choices. -/
inductive StyleField where
  | indentWidth | keywordCase | identifierCase | newLineLists | spaceBetween
deriving DecidableEq

/-- The name of the choice in messages and listings. -/
def StyleField.name : StyleField → String
  | indentWidth => "indent_width"
  | keywordCase => "keyword_case"
  | identifierCase => "identifier_case"
  | newLineLists => "new_line_lists"
  | spaceBetween => "space_between_statements"

/-- The message about a field for which something else than the name of a case was given. -/
def StyleField.noSuchCase (field : StyleField) (shown : String) : String :=
  let names := ", ".intercalate (LetterCase.all.map LetterCase.name)
  s!"Invalid {field.name} {shown}, must be one of {names}"

/-- What can be wrong with a request. -/
inductive StyleError where
  /-- The field names no case. -/
  | unknownCase (field : StyleField) (value : Text)
  /-- Lines cannot be indented by less than nothing. -/
  | negativeIndent (width : Int)
deriving DecidableEq

/-- What is wrong, in words. -/
def StyleError.message : StyleError → String
  | unknownCase field value => field.noSuchCase (String.ofList (Text.quoted value))
  | negativeIndent width =>
    s!"Invalid {StyleField.indentWidth.name} {width}, must be positive"

/-- The case that a field of a request names. -/
def caseNamed (field : StyleField) (value : Text) : Except StyleError LetterCase :=
  match LetterCase.ofName? value with
  | some c => .ok c
  | none => .error (.unknownCase field value)

namespace Style

/-- The style that a request asks for. Cases are checked before the width. -/
def ofRequest (r : StyleRequest) : Except StyleError Style := do
  let keywords ← caseNamed .keywordCase r.keywordCase
  let identifiers ← caseNamed .identifierCase r.identifierCase
  if r.indentWidth < 0 then .error (.negativeIndent r.indentWidth)
  else .ok ⟨⟨r.indentWidth.toNat, r.newLineLists⟩, ⟨keywords, identifiers⟩, r.spaceBetween⟩

/-- The request that asks for a style. -/
def request (s : Style) : StyleRequest :=
  ⟨s.spacing.indentWidth, s.casing.keywords.name.toList, s.casing.identifiers.name.toList,
    s.spacing.newLineLists, s.spaceBetween⟩

/-- The style with some choices replaced. -/
def change (s : Style) (c : StyleChange) : Except StyleError Style := ofRequest (s.request.change c)

end Style

end SqlScript
