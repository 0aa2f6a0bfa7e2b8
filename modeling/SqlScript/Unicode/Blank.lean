import SqlScript.Unicode.Range

namespace SqlScript.Unicode

/-!
# Blank characters

* `isWhiteSpace` is the property `White_Space`;
* `isBlank` adds the four information separators `U+001C` to `U+001F`. Blank characters
  separate tokens and are trimmed off texts.
-/

/-- The characters with the property `White_Space`. -/
def whiteSpaces : List CodeRange :=
  [(0x9, 0xD), (0x20, 0x20), (0x85, 0x85), (0xA0, 0xA0), (0x1680, 0x1680), (0x2000, 0x200A),
   (0x2028, 0x2029), (0x202F, 0x202F), (0x205F, 0x205F), (0x3000, 0x3000)]

/-- The information separators, which end files, groups, records and units. -/
def informationSeparators : CodeRange := (0x1C, 0x1F)

/-- Whether the character has the property `White_Space`. -/
def isWhiteSpace (c : Char) : Bool := inRanges whiteSpaces c

/-- Whether the character is blank. -/
def isBlank (c : Char) : Bool := isWhiteSpace c || informationSeparators.covers c.toNat

end SqlScript.Unicode
