import SqlScript.Layout.Line
import SqlScript.Node.Basic

namespace SqlScript

/-!
# Drafts

A draft is the lines of a statement while they are laid out. Pieces are put at the end of its last
line, until a new line is started.

* `Draft.put` adds a piece;
* `Draft.startLine` starts a line, indented as the draft says;
* `Draft.insert` adds the lines of a block;
* `Draft.finish` gives the lines.
-/

/-- Lines that are being laid out. -/
structure Draft where
  /-- The lines that are complete. -/
  above : List Line
  /-- The last line. -/
  current : Line
  /-- The indentation of the next line. It can be negative, which indents as zero does. -/
  indent : Int
  /-- Whether the last piece is a comment that needs a line break after it. -/
  afterLineComment : Bool
  /-- The first malformed block that was met. -/
  fault : Option StructureError
deriving DecidableEq

namespace Draft

/-- Nothing was laid out yet. -/
def start : Draft := ⟨[], [], 0, false, none⟩

/-- All lines so far. -/
def lines (d : Draft) : List Line := d.above ++ [d.current]

/-- Whether a piece put now would be the first one of its line, or comes after a space. -/
def isFresh (d : Draft) : Bool := d.current.isBlank || d.current.endsInSpace

/-- The draft with one more piece. -/
def put (d : Draft) (p : Piece) : Draft :=
  { d with current := d.current ++ [p], afterLineComment := false }

/-- The draft with more pieces in its last line. -/
def putAll (d : Draft) (ps : Line) : Draft := ps.foldl put d

/-- The draft with a space, unless it is at the start of a line. -/
def space (d : Draft) : Draft := if d.isFresh then d else d.put (.pad 1)

/-- The draft with a new last line. A blank one is used again. -/
def breakLine (d : Draft) : Draft :=
  { d with
    above := if d.current.isBlank then d.above else d.above ++ [d.current]
    current := Line.indented d.indent }

/-- The draft with a new last line, after its indentation was changed by some levels. -/
def startLine (s : Spacing) (levels : Int) (d : Draft) : Draft :=
  breakLine { d with indent := d.indent + levels * s.indentWidth }

/-- The draft with the lines of a block, one level deeper, and a new last line after them. The
    empty line that a comment leaves at the end of a block is not needed. -/
def insert (s : Spacing) (ls : List Line) (d : Draft) : Draft :=
  let kept := if 1 < ls.length then Line.dropBlankLast ls else ls
  let deeper := kept.map (Line.indented (d.indent + s.indentWidth) ++ ·)
  { d with
    above := d.above ++ d.current :: Line.dropBlankLast deeper
    current := Line.indented d.indent }

/-- The draft with the fault noted, unless it has one already. -/
def note (fault : Option StructureError) (d : Draft) : Draft := { d with fault := d.fault.or fault }

/-- The lines that were laid out. A line comment keeps the empty line after it. -/
def finish (d : Draft) : List Line :=
  if d.afterLineComment then d.lines else Line.dropBlankEnd d.lines

end Draft

end SqlScript
