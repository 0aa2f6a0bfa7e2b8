import SqlScript.Text.Basic
import SqlScript.Unicode.Printable

namespace SqlScript.Text

/-!
# Quoted texts

How messages and listings show a text, so that all its characters can be told apart: between
single quotes, or between double quotes when only single ones occur in the text.

* `escape` shows one character;
* `quoted` shows a text.
-/

/-- The quote that a text is shown in. -/
def quoteMark (t : Text) : Char := if t.contains '\'' && !t.contains '"' then '"' else '\''

/-- A number in lower case hexadecimal digits, with zeros in front up to the given width. -/
def hexadecimal (width n : Nat) : Text :=
  let digits := Nat.toDigits 16 n
  List.replicate (width - digits.length) '0' ++ digits

/-- The escape of a character by its code point, in the shortest of the three forms. -/
def escapeCode (n : Nat) : Text :=
  if n < 0x100 then '\\' :: 'x' :: hexadecimal 2 n
  else if n < 0x10000 then '\\' :: 'u' :: hexadecimal 4 n
  else '\\' :: 'U' :: hexadecimal 8 n

/-- A character as it is shown between the given quotes. -/
def escape (quote c : Char) : Text :=
  if c = quote ∨ c = '\\' then ['\\', c]
  else if c = '\n' then ['\\', 'n']
  else if c = '\r' then ['\\', 'r']
  else if c = '\t' then ['\\', 't']
  else if Unicode.isPrintable c then [c]
  else escapeCode c.toNat

/-- A text as it is shown in messages and listings. -/
def quoted (t : Text) : Text :=
  quoteMark t :: (t.flatMap (escape (quoteMark t)) ++ [quoteMark t])

end SqlScript.Text
