import SqlScript.Statement.Basic
import SqlScript.Statement.Identifier

namespace SqlScript

/-!
# The current schema

* `Statement.newSchema?` is the schema that a `SET SCHEMA` statement switches to.
-/

/-- The tokens after an optional token that satisfies `p`. -/
def dropOptional (p : Token → Bool) : List Token → List Token
  | [] => []
  | t :: rest => if p t then rest else t :: rest

/-- The name of a schema, which can be written as a string literal. -/
def Token.schemaName (t : Token) : Text :=
  if t.kind = .string then Text.undouble '\'' (Identifier.inner t.text)
  else Identifier.stored t.text

/-- The schema that a statement of the form `SET [CURRENT] SCHEMA [=] name` switches to. The words
    are looked for after the first token. -/
def Statement.newSchema? (s : Statement) : Option Text :=
  if s.verb? = some .SET then
    match dropOptional (·.spells "CURRENT") s.significant.tail with
    | [] => none
    | t :: rest =>
      if t.spells "SCHEMA" || t.spells "CURRENT_SCHEMA" then
        (dropOptional (·.kind == .equals) rest).head?.map Token.schemaName
      else none
  else none

end SqlScript
