import SqlScript.Script.Locate
import SqlScript.Unicode.Lowercase

namespace SqlScript

/-!
# What to run

What is run from an editor is the selected text or, when nothing but blanks is selected, the group
of statements at the cursor. It can start with a qualifier that tells how to run it.

* `Qualifier.split` takes the qualifier off a text;
* `Runnable.find` finds what to run.
-/

/-- How a text is run, or what is done with its results. -/
inductive Qualifier where
  | statement | cl | json | csv | sql
deriving DecidableEq

namespace Qualifier

/-- The name of the qualifier, which it is written with. -/
def name : Qualifier → String
  | statement => "statement"
  | cl => "cl"
  | json => "json"
  | csv => "csv"
  | sql => "sql"

/-- The qualifiers that can be written. -/
def written : List Qualifier := [cl, json, csv, sql]

/-- The qualifier with the colon behind it. -/
def mark (q : Qualifier) : Text := q.name.toList ++ [':']

/-- The qualifier that a text starts with, in whatever case, and the text without it. -/
def split (t : Text) : Qualifier × Text :=
  match written.find? fun q => q.mark.isPrefixOf (Unicode.lower t) with
  | some q => (q, Text.trim (t.drop q.mark.length))
  | none => (statement, t)

end Qualifier

/-- A text to run. -/
structure Runnable where
  qualifier : Qualifier
  content : Text
  /-- The first statement of the group at the cursor. -/
  head : Option Statement
  /-- The place of the text, its qualifier included. -/
  span : Option Span
deriving DecidableEq

namespace Runnable

/-- The text that is selected, with the ends of the selection as they are given. -/
def ofSelection (t : Text) (selection : Span) : Option Runnable :=
  let selected := Text.slice t selection.start selection.stop
  if Text.isBlank selected then none
  else
    let (qualifier, content) := Qualifier.split (Text.trim selected)
    some ⟨qualifier, content, none, some selection⟩

/-- The group of statements at the cursor. -/
def ofCursor (t : Text) (offset : Int) : Option Runnable :=
  ((Script.ofText t).groupAt? offset).map fun g =>
    let (qualifier, content) := Qualifier.split (Text.slice t g.span.start g.span.stop)
    ⟨qualifier, content, some g.first, some g.span⟩

/-- Nothing to run. -/
def nothing : Runnable := ⟨.statement, [], none, none⟩

/-- What to run in a text. -/
def find (t : Text) (offset : Option Int) (selection : Option Span) : Runnable :=
  ((selection.bind (ofSelection t)).or (offset.bind (ofCursor t))).getD nothing

end Runnable

end SqlScript
