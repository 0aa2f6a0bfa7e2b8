import SqlScript.Layout.Style
import SqlScript.Text.Recased

namespace SqlScript

/-!
# Lines of pieces

A statement is laid out as lines of pieces before anything is written, so that where lines break
does not depend on the case that words are written in.

* `Piece.source` is the text of a piece as it is in the script, which the layout goes by;
* `Piece.shown` is the text that is written;
* `Line.isBlank` and `Line.endsInSpace` are what the layout asks about a line;
* `Line.isBlank_shown` and `Line.endsInSpace_shown` say that the answers are the same for the text
  that is written.
-/

/-- A part of a line. -/
inductive Piece where
  /-- Spaces. -/
  | pad (width : Nat)
  /-- A token that is written as it is. -/
  | verbatim (token : Token)
  /-- A token that is written in the case chosen for its kind. -/
  | cased (token : Token)
  /-- The parenthesis that opens a block. -/
  | openParen
  /-- The parenthesis that closes a block. -/
  | closeParen
  /-- The semicolon after a statement. -/
  | terminator
deriving DecidableEq

/-- A line that was laid out. -/
abbrev Line := List Piece

namespace Piece

/-- The text of the piece, where `write` is the text of the tokens that have a case. -/
def textBy (write : Token → Text) : Piece → Text
  | pad width => Text.spaces width
  | verbatim t => t.text
  | cased t => write t
  | openParen => ['(']
  | closeParen => [')']
  | terminator => [';']

/-- The text of the piece as it is in the script. -/
def source (p : Piece) : Text := p.textBy Token.text

/-- The text of the piece in the chosen cases. -/
def shown (c : Casing) (p : Piece) : Text := p.textBy c.apply

end Piece

namespace Line

/-- The text of the line as it is in the script. -/
def source (l : Line) : Text := l.flatMap Piece.source

/-- The text of the line in the chosen cases. -/
def shown (c : Casing) (l : Line) : Text := l.flatMap (Piece.shown c)

/-- Whether the line shows nothing. -/
def isBlank (l : Line) : Bool := Text.isBlank l.source

/-- Whether the last character of the line is a space. -/
def endsInSpace (l : Line) : Bool := Text.endsInSpace l.source

/-- A line with nothing but an indentation. A negative one is none. -/
def indented (width : Int) : Line := [.pad width.toNat]

/-- The lines without the last one, when that is blank. -/
def dropBlankLast (ls : List Line) : List Line :=
  if ls.getLast?.any isBlank then ls.dropLast else ls

/-- The lines without the blank ones at the end. The first line stays. -/
def dropBlankEnd : List Line → List Line
  | [] => []
  | l :: rest => l :: (rest.reverse.dropWhile isBlank).reverse

end Line

/-! ### Cases make no difference -/

/-- A text in another letter case has the same blanks, and nothing else in it is blank. -/
theorem LetterCase.recased (c : LetterCase) (t : Text) : Recased t (c.apply t) := by
  cases c with
  | preserve => exact Recased.refl t
  | upper => exact Recased.upper t
  | lower => exact Recased.lower t

/-- A token in the case chosen for its kind has the same blanks. -/
theorem Casing.recased (c : Casing) (t : Token) : Recased t.text (c.apply t) := by
  unfold Casing.apply
  split
  · exact Recased.refl t.text
  · split <;> exact LetterCase.recased _ _

/-- A piece shows its source with the same blanks. -/
theorem Piece.recased (c : Casing) (p : Piece) : Recased p.source (p.shown c) := by
  cases p with
  | cased t => exact c.recased t
  | _ => exact Recased.refl _

/-- A line shows its source with the same blanks. -/
theorem Line.recased (c : Casing) (l : Line) : Recased l.source (l.shown c) := by
  induction l with
  | nil => exact Recased.nil
  | cons p rest ih => exact (p.recased c).append ih

/-- Whether a line shows nothing does not depend on the case that it is written in. -/
theorem Line.isBlank_shown (c : Casing) (l : Line) : Text.isBlank (l.shown c) = l.isBlank :=
  (l.recased c).isBlank

/-- Whether a line ends with a space does not depend on the case that it is written in. -/
theorem Line.endsInSpace_shown (c : Casing) (l : Line) :
    Text.endsInSpace (l.shown c) = l.endsInSpace :=
  (l.recased c).endsInSpace

end SqlScript
