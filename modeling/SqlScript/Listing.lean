import SqlScript.Layout.Style
import SqlScript.Node.Basic
import SqlScript.Script.Group
import SqlScript.Text.Quoted

namespace SqlScript.Listing

/-!
# Listings

The notation in which values are shown to developers: a name, and in parentheses what the value is
made of.

* `ofToken`, `ofNode`, `ofStatement`, `ofGroup` and `ofStyle` show the values of this library;
* `list` shows a sequence.
-/

/-- A name with parts in parentheses behind it. -/
def call (name : String) (parts : Text) : Text := name.toList ++ '(' :: (parts ++ [')'])

/-- A sequence in brackets. -/
def list (items : List Text) : Text := '[' :: (Text.join [',', ' '] items ++ [']'])

/-- The name of tokens of a kind. -/
def kindName : Kind → String
  | .verb => "StatementTypeToken"
  | .clause => "ClauseToken"
  | .word => "WordToken"
  | .delimited => "SQLNameToken"
  | .comma => "CommaToken"
  | .dot => "DotToken"
  | .equals => "EqualToken"
  | .colon => "ColonToken"
  | .semicolon => "SemicolonToken"
  | .openParen => "OpenParenToken"
  | .closeParen => "CloseParenToken"
  | .string => "StringToken"
  | .number => "NumberToken"
  | .comment => "CommentToken"
  | .operator => "OperatorToken"
  | .unknown => "UnknownToken"

/-- A token with its text in quotes. -/
def ofToken (t : Token) : Text := call (kindName t.kind) (Text.quoted t.text)

mutual

/-- A node with all that is in it. -/
def ofNode : Node → Text
  | .leaf t => ofToken t
  | .block interior _ => call "BlockToken" (list (ofNodes interior))

/-- The nodes of a sequence. -/
def ofNodes : List Node → List Text
  | [] => []
  | n :: rest => ofNode n :: ofNodes rest

end

/-- A statement with its verb and its place. -/
def ofStatement (s : Statement) : Text :=
  call "Statement" ((Statement.verbName s.verb?).toList ++ [',', ' '] ++
    Decimal.ofInt s.span.start ++ '-' :: Decimal.ofInt s.span.stop)

/-- A group with its statements. -/
def ofGroup (g : Group) : Text := call "StatementGroup" (list (g.statements.map ofStatement))

/-- A truth value. -/
def ofBool (b : Bool) : Text := (if b then "True" else "False").toList

/-- A choice of a style with its name. -/
def ofField (field : StyleField) (value : Text) : Text := field.name.toList ++ '=' :: value

/-- A style with all its choices. -/
def ofStyle (s : Style) : Text :=
  call "FormatOptions" <| Text.join [',', ' ']
    [ofField .indentWidth (Decimal.ofNat s.spacing.indentWidth),
     ofField .keywordCase (Text.quoted s.casing.keywords.name.toList),
     ofField .identifierCase (Text.quoted s.casing.identifiers.name.toList),
     ofField .newLineLists (ofBool s.spacing.newLineLists),
     ofField .spaceBetween (ofBool s.spaceBetween)]

end SqlScript.Listing
