import SqlScript.Layout.Nodes
import SqlScript.Node.Nest
import SqlScript.Script.Basic

namespace SqlScript

/-!
# Formatted scripts

The statements of a script are laid out one by one, and indented as deep as the bodies that they
belong to.

* `Statement.layOut` gives the lines of a statement, with its semicolon;
* `indentations` is how far the statements of a group are indented;
* `Script.layOut` gives the lines of a script;
* `Script.format` writes them.
-/

/-! ### Statements -/

/-- The lines with a semicolon at the end of the last one. -/
def terminated (ls : List Line) : List Line :=
  ls.dropLast ++ [(ls.getLast?.getD []) ++ [.terminator]]

namespace Statement

/-- Whether a semicolon ends the formatted statement. Comments on their own have none, and neither
    have statements that open a body. -/
def isTerminated (s : Statement) : Bool := !s.significant.isEmpty && s.opener?.isNone

/-- The lines of a statement. -/
def layOut (sp : Spacing) (s : Statement) : Except StructureError (List Line) := do
  let nodes ← Node.ofTokens s.tokens
  let ls ← Node.layOut sp nodes
  return if s.significant.isEmpty then Line.dropBlankEnd ls
    else if s.isTerminated then terminated ls
    else ls

end Statement

/-! ### Groups -/

/-- The statements with their indentations, when the first one is in a body that is indented by
    `indent`. A statement that closes a body is one level less deep, and what follows a statement
    that opens one is one level deeper. -/
def indentations (width : Nat) (indent : Int) : List Statement → List (Statement × Int)
  | [] => []
  | s :: rest =>
    let own := indent - (if s.closes then (width : Int) else 0)
    (s, own) :: indentations width (own + if s.opens then (width : Int) else 0) rest

/-- The statements of a script with their indentations, which start anew with each group. -/
def Script.indentations (width : Nat) (s : Script) : List (Statement × Int) :=
  s.groups.flatMap fun g => SqlScript.indentations width 0 g.statements

/-! ### Scripts -/

/-- Whether an empty line comes before the statement, after the statement `previous`. -/
def Style.separates (style : Style) (previous : Option Statement) (s : Statement) : Bool :=
  style.spaceBetween && previous.any fun p => p.verb? != s.verb?

/-- The lines of statements with their indentations, after the statement `previous`. -/
def Style.layOut (style : Style) (previous : Option Statement) :
    List (Statement × Int) → Except StructureError (List Line)
  | [] => .ok []
  | (s, indent) :: rest => do
    let gap : List Line := if style.separates previous s then [[]] else []
    let own ← s.layOut style.spacing
    let others ← style.layOut (some s) rest
    return gap ++ own.map (Line.indented indent ++ ·) ++ others

namespace Script

/-- The lines of a script. -/
def layOut (style : Style) (s : Script) : Except StructureError (List Line) :=
  style.layOut none (s.indentations style.spacing.indentWidth)

/-- The text of lines, without blank characters at their ends. -/
def write (c : Casing) (lineBreak : Text) (ls : List Line) : Text :=
  Text.join lineBreak (ls.map fun l => Text.trimEnd (l.shown c))

/-- The formatted script, in the line breaks that it has. -/
def format (style : Style) (s : Script) : Except StructureError Text :=
  (s.layOut style).map (write style.casing (Text.lineBreak s.text))

/-- What there is to tell about a script that is formatted. -/
def formatNotices (style : Style) (s : Script) : List Notice :=
  match s.format style with
  | .ok _ => s.notices ++ [.formatted s.statements.length]
  | .error _ => s.notices

end Script

/-- A text formatted as a script. -/
def Style.format (style : Style) (t : Text) : Except StructureError Text :=
  (Script.ofText t).format style

end SqlScript
