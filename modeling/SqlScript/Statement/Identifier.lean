import SqlScript.Text.Doubled
import SqlScript.Unicode.Uppercase

namespace SqlScript.Identifier

/-!
# Identifiers

A name is ordinary, and then its case does not matter, or it is delimited by double quotes, and
then it stands for exactly what is between them.

* `stored` is the name as the database keeps it.
-/

/-- The character around delimited names. -/
def delimiter : Char := '"'

/-- What stands between the first and the last character of a text. -/
def inner (t : Text) : Text := (t.drop 1).dropLast

/-- Whether the name is delimited on both sides. -/
def isDelimited (t : Text) : Bool :=
  2 ≤ t.length && t.head? == some delimiter && t.getLast? == some delimiter

/-- The name as the database keeps it: in upper case when it is ordinary, without its delimiters
    when it has them. -/
def stored (t : Text) : Text :=
  if isDelimited t then Text.undouble delimiter (inner t) else Unicode.upper t

end SqlScript.Identifier
