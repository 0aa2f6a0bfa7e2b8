import SqlScript.Decimal.Shortest

namespace SqlScript

/-!
# Tables in plain text

A table is a sequence of columns of values, which are shown as texts of limited length.

* `Cell.shown` is the text of a value;
* `Column` is a column of texts, which are brought to one width by `Column.align`;
* `Table.lines` shows a header, a ruler, some rows, and a note on the rows that are left out;
* `Table.renderWithin` refuses with a `RowLimitError` to show a number of rows that makes no sense.
-/

/-! ### Values -/

/-- A value of a table. -/
inductive Cell where
  | missing
  | boolean (value : Bool)
  | integer (value : Int)
  | float (value : Float)
  | text (value : Text)

/-- The types of values. -/
inductive CellType where
  | missing | boolean | integer | float | text
deriving DecidableEq

/-- Whether values of the type are numbers. -/
def CellType.isNumeric : CellType → Bool
  | integer | float => true
  | _ => false

/-- The length of the longest text that is shown in full. -/
def maxCellLength : Nat := 30

/-- What stands at the end of a text that is not shown in full. -/
def ellipsis : Text := ['.', '.', '.']

/-- The text, cut off when it is too long. -/
def shorten (t : Text) : Text :=
  if maxCellLength < t.length then t.take (maxCellLength - ellipsis.length) ++ ellipsis else t

/-- A text that is not too long is shown in full. -/
theorem shorten_of_le {t : Text} (h : t.length ≤ maxCellLength) : shorten t = t :=
  if_neg (Nat.not_lt.mpr h)

/-- Of a text that is too long, the first characters are shown, with the ellipsis behind them. -/
theorem shorten_of_lt {t : Text} (h : maxCellLength < t.length) :
    shorten t = t.take (maxCellLength - ellipsis.length) ++ ellipsis :=
  if_pos h

/-- A text that is cut off takes all the characters that there may be. -/
theorem length_shorten (t : Text) : (shorten t).length = min t.length maxCellLength := by
  by_cases h : maxCellLength < t.length
  · have hroom : ellipsis.length ≤ maxCellLength := by decide
    rw [shorten_of_lt h, List.length_append, List.length_take]
    omega
  · rw [shorten_of_le (Nat.not_lt.mp h)]
    omega

/-- No text is shown with more characters. -/
theorem length_shorten_le (t : Text) : (shorten t).length ≤ maxCellLength := by
  rw [length_shorten]
  exact Nat.min_le_right ..

/-- A text is shown in full only when it is not too long. -/
theorem shorten_eq_self_iff {t : Text} : shorten t = t ↔ t.length ≤ maxCellLength := by
  constructor
  · intro h
    rw [← h]
    exact length_shorten_le t
  · exact shorten_of_le

/-- What is shown of a text starts as the text does, with all but the last three of the characters
    that there may be. -/
theorem take_shorten (t : Text) : (shorten t).take (maxCellLength - ellipsis.length)
    = t.take (maxCellLength - ellipsis.length) := by
  by_cases h : maxCellLength < t.length
  · have hlength : (t.take (maxCellLength - ellipsis.length)).length
        = maxCellLength - ellipsis.length := by
      rw [List.length_take]
      omega
    rw [shorten_of_lt h]
    exact List.take_left' hlength
  · rw [shorten_of_le (Nat.not_lt.mp h)]

/-- The text of a value. A missing value has none. -/
def Cell.shown : Cell → Text
  | missing => []
  | boolean true => "true".toList
  | boolean false => "false".toList
  | integer n => shorten (Decimal.ofInt n)
  | float x => shorten (Decimal.ofFloat x)
  | text t => shorten t

/-! ### Columns -/

/-- A column of texts. -/
structure Column where
  name : Text
  cells : List Text
  alignRight : Bool
deriving DecidableEq

namespace Column

/-- The length of the longest text of the column, its name included. -/
def width (c : Column) : Nat := (c.cells.map List.length).foldl max c.name.length

/-- The text, filled up to the width of the column. -/
def align (c : Column) (fill : Char) (t : Text) : Text :=
  let padding := List.replicate (c.width - t.length) fill
  if c.alignRight then padding ++ t else t ++ padding

/-- The name of a column is no longer than the column is wide. -/
theorem length_name_le_width (c : Column) : c.name.length ≤ c.width := by
  rw [width, List.foldl_max]
  exact Nat.le_max_left ..

/-- No cell of a column is longer than the column is wide. -/
theorem length_cell_le_width {c : Column} {t : Text} (h : t ∈ c.cells) : t.length ≤ c.width := by
  rw [width, List.foldl_max]
  exact Nat.le_trans (List.le_max?_getD_of_mem (List.mem_map_of_mem h)) (Nat.le_max_right ..)

/-- A text that is no longer than the column is brought to the width of the column. -/
theorem length_align {c : Column} {t : Text} (fill : Char) (h : t.length ≤ c.width) :
    (c.align fill t).length = c.width := by
  unfold align
  split <;> simp <;> omega

end Column

/-! ### Tables -/

/-- A column of values of one type. -/
structure Series where
  name : Text
  type : CellType
  values : List Cell

/-- The column of the first values of a series. -/
def Series.column (rows : Nat) (s : Series) : Column :=
  ⟨s.name, (s.values.take rows).map Cell.shown, s.type.isNumeric⟩

/-- Series of the same length. -/
abbrev Table := List Series

namespace Table

/-- The number of rows. -/
def rows (t : Table) : Nat := (t.head?.map fun s => s.values.length).getD 0

/-- What stands between two cells of a row. -/
def separator : Text := [' ', '|', ' ']

/-- The cells of a row in one line, without the spaces at its end. -/
def rowText (cells : List Text) : Text := Text.dropEnd (· == ' ') (Text.join separator cells)

/-- The number of rows that are shown when at most `limit` are asked for. -/
def shownRows (limit : Int) (t : Table) : Nat := min limit.toNat t.rows

/-- The columns of the rows that are shown. -/
def columns (limit : Int) (t : Table) : List Column := t.map (Series.column (t.shownRows limit))

/-- The note on the rows that are left out. -/
def note (limit : Int) (t : Table) : List Text :=
  if limit < t.rows then
    ["... and ".toList ++ Decimal.ofInt (t.rows - limit) ++ " more rows".toList]
  else []

/-- The lines of the table, with at most `limit` rows. -/
def lines (limit : Int) (t : Table) : List Text :=
  let columns := t.columns limit
  let row (n : Nat) : Text := rowText (columns.map fun c => c.align ' ' (c.cells.getD n []))
  rowText (columns.map fun c => c.align ' ' c.name) ::
    rowText (columns.map fun c => c.align '-' []) ::
    ((List.range (t.shownRows limit)).map row ++ t.note limit)

/-- The table as a text. -/
def render (limit : Int) (t : Table) : Text := Text.join Text.lineFeed (t.lines limit)

end Table

/-! ### Limits -/

/-- What can be wrong with the number of rows that are asked for. -/
inductive RowLimitError where
  /-- It was left out. -/
  | missing
  /-- It does not fit in 64 bits. -/
  | outOfRange
deriving DecidableEq

/-- What is wrong, in words. -/
def RowLimitError.message : RowLimitError → String
  | missing => "an integer is required"
  | outOfRange => "int too large to convert to C long"

/-- Whether the number fits in 64 bits, one of which is its sign. -/
def isRowLimit (n : Int) : Bool := -Decimal.bitValues 63 ≤ n && n < Decimal.bitValues 63

/-- The table as a text with at most `limit` rows, when there can be so many. -/
def Table.renderWithin (limit : Option Int) (t : Table) : Except RowLimitError Text :=
  match limit with
  | none => .error .missing
  | some n => if isRowLimit n then .ok (t.render n) else .error .outOfRange

end SqlScript
