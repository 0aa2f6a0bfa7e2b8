import SqlScript.Statement.Basic
import SqlScript.Statement.Identifier

namespace SqlScript

/-!
# References to objects

Statements that create, declare or alter an object refer to it by name, after the words that
tell what kind of object it is.

* `ObjectName.read?` reads a name, with or without a schema;
* `existenceCheck` is the number of tokens of an `IF EXISTS` or `IF NOT EXISTS`;
* `Statement.reference?` is the object that a statement is about;
* `Statement.changedName?` is the name under which a changed object is known to the database.
-/

/-- The name of an object, which can be qualified by a schema. The name of a schema has no name
    of its own. -/
structure ObjectName where
  schema : Option Text
  name : Option Text
deriving DecidableEq

/-- The object that a statement creates, declares or alters. -/
structure Reference where
  verb : Verb
  /-- The words that tell the kind of object, such as `TABLE`. -/
  objectType : Text
  object : ObjectName
deriving DecidableEq

/-! ### Names -/

/-- Whether the token separates a schema from a name. -/
def Token.isQualifierMark (t : Token) : Bool :=
  t.kind == .dot || (t.kind == .operator && t.spells "/")

/-- The name at the front of a sequence of tokens. -/
def ObjectName.read? : List Token → Option ObjectName
  | [] => none
  | first :: rest =>
    if !first.kind.isName then none
    else
      match rest with
      | mark :: second :: _ =>
        if mark.isQualifierMark && second.kind.isName then
          some ⟨some first.text, some second.text⟩
        else some ⟨none, some first.text⟩
      | _ => some ⟨none, some first.text⟩

/-- The number of tokens of the check for existence at the front of a sequence of tokens. -/
def existenceCheck (ts : List Token) : Nat :=
  let words := (ts.take 3).map Token.key
  if words = ["IF".toList, "NOT".toList, "EXISTS".toList] then 3
  else if words.take 2 = ["IF".toList, "EXISTS".toList] then 2
  else 0

/-! ### Kinds of objects -/

/-- The words that can stand between the verb and the name of an object. -/
def objectTypeWords : List String :=
  ["OR", "REPLACE", "ALIAS", "DISTINCT", "ENCODED", "FUNCTION", "GLOBAL", "INDEX", "MASK",
   "MATERIALIZED", "PERMISSION", "PROCEDURE", "QUERY", "SCHEMA", "SEQUENCE", "SPECIFIC", "TABLE",
   "TEMPORARY", "TRIGGER", "TYPE", "UNIQUE", "VARIABLE", "VECTOR", "VIEW"]

/-- The words among them that tell nothing about the object. -/
def replaceWords : List String := ["OR", "REPLACE"]

/-- The words that follow `DECLARE` when it declares a handler, which has no name. -/
def handlerWords : List String := ["CONTINUE", "EXIT", "UNDO"]

/-- Whether the token can stand between the verb and the name of an object. -/
def Token.isObjectTypeWord (t : Token) : Bool :=
  t.kind != .delimited && isOneOf objectTypeWords t.key

/-- The words that tell the kind of object, at the front of a sequence of tokens. -/
def typeWords (ts : List Token) : List Text :=
  ((ts.takeWhile Token.isObjectTypeWord).map Token.key).filter fun w => !isOneOf replaceWords w

/-- What a `DECLARE` without such words declares: a cursor or a condition when one of these words
    comes before any `FOR`, else a variable. -/
def declaredType (ts : List Token) : Text :=
  let words := (ts.map Token.key).takeWhile (· != "FOR".toList)
  (words.find? (isOneOf ["CURSOR", "CONDITION"])).getD "VARIABLE".toList

/-! ### References -/

namespace Statement

/-- The object that follows the words for its kind, and a check for existence. -/
def namedReference? (verb : Verb) (operands : List Token) : Option Reference :=
  let objectType := Text.join [' '] (typeWords operands)
  let rest := operands.dropWhile Token.isObjectTypeWord
  (ObjectName.read? (rest.drop (existenceCheck rest))).map fun object =>
    if objectType = "SCHEMA".toList then ⟨verb, objectType, object.name, none⟩
    else ⟨verb, objectType, object⟩

/-- The object of a declaration that has no words for its kind. -/
def declaredReference? : List Token → Option Reference
  | [] => none
  | t :: rest =>
    if isOneOf handlerWords t.key || !t.kind.isName then none
    else some ⟨.DECLARE, declaredType rest, none, some t.text⟩

/-- The object that the statement creates, declares or alters. -/
def reference? (s : Statement) : Option Reference :=
  match s.verb? with
  | some .CREATE => namedReference? .CREATE s.operands
  | some .ALTER => namedReference? .ALTER s.operands
  | some .DECLARE =>
    if (typeWords s.operands).isEmpty then declaredReference? s.operands
    else namedReference? .DECLARE s.operands
  | _ => none

end Statement

/-! ### Names known to the database -/

/-- The name under which the database knows the object, with its schema when it has one. -/
def Reference.storedName? (r : Reference) : Option Text :=
  let schema := (r.object.schema.filter fun t => !t.isEmpty).map Identifier.stored
  if r.objectType = "SCHEMA".toList then schema
  else
    r.object.name.map fun name =>
      match schema with
      | some schema => schema ++ '.' :: Identifier.stored name
      | none => Identifier.stored name

/-- The name under which the database knows the object that the statement creates or alters. -/
def Statement.changedName? (s : Statement) : Option Text :=
  s.reference?.bind fun r =>
    match r.verb with
    | .CREATE | .ALTER => r.storedName?
    | _ => none

end SqlScript
