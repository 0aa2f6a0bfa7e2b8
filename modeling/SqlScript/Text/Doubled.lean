import SqlScript.Text.Basic

namespace SqlScript.Text

/-!
# Doubled quotes

Between quotes, a quote that is part of the text is written twice.

* `double` writes a text this way and `undouble` reads it;
* `undouble_double` says that reading gives back what was written.
-/

/-- The text with every `quote` in it written twice. -/
def double (quote : Char) : Text → Text
  | [] => []
  | c :: rest => if c = quote then c :: c :: double quote rest else c :: double quote rest

/-- The text with every pair of `quote`s read as one, from left to right. A quote without a
    second one stands for itself. -/
def undouble (quote : Char) : Text → Text
  | [] => []
  | [c] => [c]
  | c :: d :: rest =>
    if c = quote ∧ d = quote then c :: undouble quote rest else c :: undouble quote (d :: rest)

/-- The text between quotes, with the quotes in it doubled. -/
def enclose (quote : Char) (t : Text) : Text := quote :: (double quote t ++ [quote])

/-- A character that is no quote stands for itself. -/
theorem undouble_cons_of_ne {quote c : Char} (h : c ≠ quote) (rest : Text) :
    undouble quote (c :: rest) = c :: undouble quote rest := by
  cases rest <;> simp [undouble, h]

/-- Reading a text with doubled quotes gives back the text that was written. -/
theorem undouble_double (quote : Char) (t : Text) : undouble quote (double quote t) = t := by
  induction t with
  | nil => rfl
  | cons c rest ih =>
    by_cases h : c = quote
    · simp [double, undouble, h, ih]
    · simp [double, h, undouble_cons_of_ne h, ih]

end SqlScript.Text
