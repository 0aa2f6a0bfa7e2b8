import SqlScript.Script.Basic
import SqlScript.Statement.Reference
import SqlScript.Table.Basic
import SqlScript.Text.Sorted

namespace SqlScript

/-!
# The objects of a script

* `Script.references` are the objects that the statements of a script create, declare or alter;
* `Script.referenceTable` shows them as a table;
* `Script.changedNames` are the names of the objects that differ after the script was run.
-/

/-- An object with the place of the statement that is about it. -/
structure LocatedReference where
  reference : Reference
  span : Span
deriving DecidableEq

/-- The object that a statement is about, with the place of the statement. -/
def Statement.located? (s : Statement) : Option LocatedReference :=
  s.reference?.map fun r => ⟨r, s.span⟩

namespace Script

/-- The objects that the script is about, in the order of its statements. -/
def references (s : Script) : List LocatedReference := s.statements.filterMap Statement.located?

/-- The objects that the script is about, as a table. -/
def referenceTable (s : Script) : Table :=
  let rs := s.references
  let part (t : Option Text) : Cell := t.elim .missing .text
  [⟨"statement".toList, .text, rs.map fun r => .text r.reference.verb.name.toList⟩,
   ⟨"create_type".toList, .text, rs.map fun r => .text r.reference.objectType⟩,
   ⟨"schema".toList, .text, rs.map fun r => part r.reference.object.schema⟩,
   ⟨"name".toList, .text, rs.map fun r => part r.reference.object.name⟩,
   ⟨"start".toList, .integer, rs.map fun r => .integer r.span.start⟩,
   ⟨"end".toList, .integer, rs.map fun r => .integer r.span.stop⟩]

/-- The names of the objects that the script creates or alters, in ascending order. -/
def changedNames (s : Script) : List Text :=
  Text.listed ((s.statements.filterMap Statement.changedName?).filter fun t => !t.isEmpty)

end Script

end SqlScript
