import SqlScript.Unicode.Blank

namespace SqlScript

/-!
# Texts

A text is the list of its characters, so that offsets and lengths count characters.

* `Text.isBlank`, `Text.trim` and its one-sided variants deal with blank characters;
* `Text.slice` cuts a piece out of a text, whatever its ends are;
* `Text.splice` replaces a piece of a text;
* `Text.lineBreak` is the way in which a text ends its lines.
-/

/-- A text, as the list of its characters. -/
abbrev Text := List Char

namespace Text

/-- Whether the text has no other characters than blank ones. -/
def isBlank (t : Text) : Bool := t.all Unicode.isBlank

/-- The text without the last characters that satisfy `p`. -/
def dropEnd (p : Char → Bool) (t : Text) : Text := (t.reverse.dropWhile p).reverse

/-- The text without the blank characters at its end. -/
def trimEnd (t : Text) : Text := dropEnd Unicode.isBlank t

/-- The text without the blank characters at its beginning and at its end. -/
def trim (t : Text) : Text := trimEnd (t.dropWhile Unicode.isBlank)

/-- Whether the text ends with the character. -/
def endsIn (c : Char) (t : Text) : Bool := t.getLast? == some c

/-- Whether the text ends with a space. -/
def endsInSpace (t : Text) : Bool := endsIn ' ' t

/-- As many spaces. -/
def spaces (n : Nat) : Text := List.replicate n ' '

/-- The texts one after the other, with `separator` between them. -/
def join (separator : Text) (ts : List Text) : Text := separator.intercalate ts

/-! ### Slices -/

/-- The position that an index denotes in a sequence of the given length: a negative index
    counts from the end, and what is out of range is moved to the nearest end. -/
def position (length : Nat) (index : Int) : Nat :=
  if index < 0 then (index + length).toNat else min index.toNat length

/-- The characters from `start` up to `stop`, which are indices as in `position`. -/
def slice (t : Text) (start stop : Int) : Text :=
  let first := position t.length start
  (t.drop first).take (position t.length stop - first)

/-- The text with `deleted` characters from `start` on replaced by `inserted`. -/
def splice (t : Text) (start deleted : Int) (inserted : Text) : Text :=
  t.take (position t.length start) ++ inserted ++ t.drop (position t.length (start + deleted))

/-! ### Lines -/

/-- The line break of most systems. -/
def lineFeed : Text := ['\n']

/-- The line break made of two characters. -/
def carriageReturnLineFeed : Text := ['\r', '\n']

/-- Whether `part` occurs in the text. -/
def hasPart (part : Text) : Text → Bool
  | [] => part.isEmpty
  | c :: rest => part.isPrefixOf (c :: rest) || hasPart part rest

/-- The line break of the text: of two characters when one such occurs, else a line feed. -/
def lineBreak (t : Text) : Text :=
  if hasPart carriageReturnLineFeed t then carriageReturnLineFeed else lineFeed

/-- The text with every line break written as a line feed. -/
def unifyLineBreaks : Text → Text
  | [] => []
  | '\r' :: '\n' :: rest => '\n' :: unifyLineBreaks rest
  | '\r' :: rest => '\n' :: unifyLineBreaks rest
  | c :: rest => c :: unifyLineBreaks rest

end Text

end SqlScript
