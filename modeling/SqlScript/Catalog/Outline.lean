import SqlScript.Script.Basic
import SqlScript.Statement.Reference

namespace SqlScript

/-!
# The outline of a script

An outline has an entry for each object that is created or declared. What is declared in the body
of an object is listed below the object.

* `Statement.entry?` is the entry of a statement;
* `Group.outline` lists the entries of a group, under the one of its first statement if there is
  one;
* `Script.outline` is the outline.
-/

/-- What an entry stands for. -/
inductive EntryKind where
  /-- An object that is created, with the body that it has. -/
  | definition
  /-- An object that is declared. -/
  | declaration
deriving DecidableEq

/-- The name of the kind in reports. -/
def EntryKind.name : EntryKind → String
  | definition => "file"
  | declaration => "variable"

/-- An object of the outline. -/
structure Entry where
  name : Text
  detail : Text
  kind : EntryKind
  span : Span
deriving DecidableEq

/-- An object of the outline with those of its body. -/
structure OutlineItem where
  entry : Entry
  body : List Entry
deriving DecidableEq

/-- What an object stands for in an outline, none when it is only altered. -/
def EntryKind.ofVerb? : Verb → Option EntryKind
  | .CREATE => some .definition
  | .DECLARE => some .declaration
  | _ => none

/-- The name that an object is listed under: its own name, or that of the schema which it is. -/
def Reference.title (r : Reference) : Text :=
  let nonempty (t : Option Text) : Option Text := t.filter fun t => !t.isEmpty
  ((nonempty r.object.name).or (nonempty r.object.schema)).getD r.verb.name.toList

/-- The entry of the object that the statement creates or declares. -/
def Statement.entry? (s : Statement) : Option Entry :=
  s.reference?.bind fun r =>
    (EntryKind.ofVerb? r.verb).map fun kind => ⟨r.title, r.objectType, kind, s.span⟩

/-- The items of a group. -/
def Group.outline (g : Group) : List OutlineItem :=
  let body := g.statements.tail.filterMap Statement.entry?
  match g.first.entry? with
  | some entry => [⟨entry, body⟩]
  | none => body.map fun entry => ⟨entry, []⟩

/-- The outline of a script. -/
def Script.outline (s : Script) : List OutlineItem := s.groups.flatMap Group.outline

end SqlScript
