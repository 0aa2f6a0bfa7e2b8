import Mathlib.Algebra.Order.Ring.Nat
import SqlScript.Proofs.Text.Trim
import SqlScript.Table.Basic

namespace SqlScript

/-!
# Tables with aligned columns

The cells of a row are brought to the widths of their columns and put one behind the other, with a
separator between them. The spaces at the end of the line are left out, but they are no loss: with
them the line has each cell at the offset of its column. A value of a type that is not listed stands
as its text.

* `Table.offset` — where a column is, told by the widths;
* `Table.IsRow` — whether a line shows texts in their columns, and `Table.isRow_rowText` — the cells
  of a row in one line do;
* `Column.isLongest_width` — a column is as wide as its longest text;
* `Table.IsShownBy` — whether lines are a header, a ruler and some rows of a table, and
  `Table.aligned_lines` — the lines of a table are, with a note when there are more rows.
-/

/-! ### Texts between separators -/

namespace Text

/-- The length of texts with separators between them. -/
theorem length_join (separator : Text) (xs : List Text) : (join separator xs).length
    = (xs.map List.length).sum + separator.length * (xs.length - 1) := by
  unfold join
  induction xs with
  | nil => rfl
  | cons x xs ih =>
    cases xs with
    | nil => simp
    | cons y xs =>
      rw [List.intercalate_cons_cons, List.length_append, List.length_append, ih]
      simp only [List.map_cons, List.sum_cons, List.length_cons, Nat.add_sub_cancel, Nat.mul_add]
      omega

/-- The text filled up with spaces to a width, on its left or on its right. -/
def justified (right : Bool) (width : Nat) (t : Text) : Text :=
  if right then spaces (width - t.length) ++ t else t ++ spaces (width - t.length)

/-- Whether the number is the length of the longest one of the texts. -/
structure IsLongest (width : Nat) (ts : List Text) : Prop where
  le : ∀ t ∈ ts, t.length ≤ width
  exists_eq : ∃ t ∈ ts, t.length = width

end Text

/-! ### Rows -/

namespace Table

/-- The offset of a column: in front of it are the columns before it, each with a separator. -/
def offset (widths : List Nat) (j : Nat) : Nat :=
  ((widths.take j).map (· + separator.length)).sum

/-- The length of a row with all its spaces. -/
def fullWidth (widths : List Nat) : Nat := widths.sum + separator.length * (widths.length - 1)

/-- The line of a row with the spaces at its end. -/
def padded (widths : List Nat) (line : Text) : Text :=
  line ++ Text.spaces (fullWidth widths - line.length)

/-- Whether a line shows texts in columns of the given widths. -/
structure IsRow (widths : List Nat) (cells : List Text) (line : Text) : Prop where
  /-- There are no spaces at its end. -/
  trimmed : line.getLast? ≠ some ' '
  length_le : line.length ≤ fullWidth widths
  /-- With the spaces at its end, each text is in its column. -/
  cell : ∀ j width x, widths[j]? = some width → cells[j]? = some x →
    ((padded widths line).drop (offset widths j)).take width = x
  /-- And there is a separator behind each column but the last one. -/
  separator : ∀ j width, widths[j]? = some width → j + 1 < widths.length →
    ((padded widths line).drop (offset widths j + width)).take separator.length = separator

theorem offset_cons_succ (width : Nat) (widths : List Nat) (j : Nat) :
    offset (width :: widths) (j + 1) = width + separator.length + offset widths j := rfl

/-- Behind the columns in front of it, a row goes on with the cell of a column. -/
theorem drop_join (xs : List Text) {j : Nat} (hj : j < xs.length) :
    (Text.join separator xs).drop (offset (xs.map List.length) j)
      = Text.join separator (xs.drop j) := by
  induction xs generalizing j with
  | nil => exact absurd hj (Nat.not_lt_zero j)
  | cons x xs ih =>
    cases j with
    | zero => rfl
    | succ j =>
      have hj : j < xs.length := Nat.lt_of_succ_lt_succ hj
      obtain ⟨y, ys, rfl⟩ := List.exists_cons_of_length_pos (Nat.zero_lt_of_lt hj)
      -- The offset counts the first cell and its separator, and these are dropped first.
      have hcell : (x ++ separator).length = x.length + separator.length := List.length_append
      rw [List.map_cons, offset_cons_succ, ← hcell, Text.join, List.intercalate_cons_cons,
        List.drop_length_add_append, List.drop_succ_cons]
      exact ih hj

/-- The spaces that a row has lost at its end can be put back. -/
theorem padded_rowText (cells : List Text) :
    padded (cells.map List.length) (rowText cells) = Text.join separator cells := by
  let g : Text := (Text.join separator cells).rtakeWhile (· == ' ')
  have hjoin : Text.join separator cells = Text.dropEnd (· == ' ') (Text.join separator cells) ++ g :=
    List.rdropWhile_append_rtakeWhile.symm
  -- Only spaces were dropped, and the length of the line tells how many.
  have hspaces : g = Text.spaces g.length :=
    List.eq_replicate_iff.mpr ⟨rfl, fun c hc => by simpa using List.mem_rtakeWhile_imp hc⟩
  have hfull : fullWidth (cells.map List.length) = (rowText cells ++ g).length := by
    rw [rowText, ← hjoin, Text.length_join, fullWidth, List.length_map]
  rw [padded, hfull, List.length_append, Nat.add_sub_cancel_left, ← hspaces, rowText, ← hjoin]

/-- The cells of a row in one line. -/
theorem isRow_rowText (cells : List Text) :
    IsRow (cells.map List.length) cells (rowText cells) := by
  refine ⟨fun hspace => ?_, ?_, ?_, ?_⟩
  · rw [rowText, Text.dropEnd_eq_rdropWhile] at hspace
    obtain ⟨hne, hlast⟩ := List.mem_getLast?_eq_getLast hspace
    exact List.rdropWhile_last_not (· == ' ') _ hne (beq_iff_eq.mpr hlast.symm)
  · have hfull := congrArg List.length (padded_rowText cells)
    rw [Text.length_join, padded, List.length_append] at hfull
    rw [fullWidth, List.length_map]
    omega
  · intro j width x hwidth hx
    obtain ⟨hj, rfl⟩ := List.getElem?_eq_some_iff.mp hx
    obtain rfl : cells[j].length = width := by simpa [hj] using hwidth
    rw [padded_rowText, drop_join cells hj, List.drop_eq_getElem_cons hj, Text.join]
    cases cells.drop (j + 1) with
    | nil => simp
    | cons y ys =>
      rw [List.intercalate_cons_cons, List.append_assoc]
      exact List.take_left
  · intro j width hwidth hnext
    rw [List.length_map] at hnext
    have hj : j < cells.length := Nat.lt_of_succ_lt hnext
    obtain rfl : cells[j].length = width := by simpa [hj] using hwidth
    rw [padded_rowText, ← List.drop_drop, drop_join cells hj, List.drop_eq_getElem_cons hj,
      List.drop_eq_getElem_cons hnext, Text.join, List.intercalate_cons_cons, List.append_assoc,
      List.drop_left]
    exact List.take_left

end Table

/-! ### Columns -/

namespace Column

/-- A column is as wide as the longest one of its texts and its name. -/
theorem isLongest_width (c : Column) : Text.IsLongest c.width (c.name :: c.cells) where
  le := List.forall_mem_cons.mpr ⟨c.length_name_le_width, fun _ ht => length_cell_le_width ht⟩
  exists_eq := by
    -- A maximum is one of the numbers it is taken of.
    have hmax : ((c.name :: c.cells).map List.length).max? = some c.width := List.max?_cons'
    exact List.mem_map.mp (List.max?_mem hmax)

/-- A cell of the ruler has dashes only. -/
theorem align_nil (c : Column) (fill : Char) : c.align fill [] = List.replicate c.width fill := by
  unfold align
  split <;> simp

end Column

/-- No value takes more than thirty characters. -/
theorem Cell.length_shown_le (v : Cell) : v.shown.length ≤ 30 := by
  cases v with
  | missing => exact Nat.zero_le 30
  | boolean b => cases b <;> decide
  | integer n => exact length_shorten_le _
  | float x => exact length_shorten_le _
  | text t => exact length_shorten_le t

/-- The text of a value of a series. -/
def Series.textAt (n : Nat) (s : Series) : Text := s.values[n]?.elim [] Cell.shown

namespace Series

/-- A column shows the first values of its series. -/
theorem getD_cells_column {rows n : Nat} (h : n < rows) (s : Series) :
    (s.column rows).cells.getD n [] = s.textAt n := by
  rw [column, textAt, List.getD_eq_getElem?_getD, List.getElem?_map, List.getElem?_take_of_lt h]
  cases s.values[n]? <;> rfl

/-- The column is wide enough for these values. -/
theorem length_textAt_le {rows n : Nat} (h : n < rows) (s : Series) :
    (s.textAt n).length ≤ (s.column rows).width := by
  rw [← getD_cells_column h, List.getD_eq_getElem?_getD]
  cases hcell : (s.column rows).cells[n]? with
  | none => exact Nat.zero_le _
  | some t => exact Column.length_cell_le_width (List.mem_of_getElem? hcell)

end Series

/-! ### Lines -/

namespace Table

/-- The widths of the columns when some rows are shown. -/
def widths (rows : Nat) (t : Table) : List Nat := t.map fun s => (s.column rows).width

/-- One text for each column, filled up with spaces: numbers are on the right, and so is the name of
    a column of numbers. -/
def justified (rows : Nat) (text : Series → Text) (t : Table) : List Text :=
  t.map fun s => Text.justified s.type.isNumeric (s.column rows).width (text s)

/-- Whether the lines show the first rows of a table: below the names of its columns and a ruler there
    is one line for each row. -/
structure IsShownBy (t : Table) (rows : Nat) (ls : List Text) : Prop where
  length_eq : ls.length = rows + 2
  header : ∀ line ∈ ls[0]?, IsRow (t.widths rows) (t.justified rows Series.name) line
  ruler : ∀ line ∈ ls[1]?,
    IsRow (t.widths rows) ((t.widths rows).map fun width => List.replicate width '-') line
  row : ∀ n < rows, ∀ line ∈ ls[n + 2]?,
    IsRow (t.widths rows) (t.justified rows (Series.textAt n)) line

/-- Texts that are no longer than their columns are brought to the widths of these. -/
theorem isRow_map_align {rows : Nat} {t : Table} (fill : Char) {text : Series → Text}
    (h : ∀ s ∈ t, (text s).length ≤ (s.column rows).width) :
    IsRow (t.widths rows) (t.map fun s => (s.column rows).align fill (text s))
      (rowText (t.map fun s => (s.column rows).align fill (text s))) := by
  have hwidths : (t.map fun s => (s.column rows).align fill (text s)).map List.length
      = t.widths rows := by
    rw [List.map_map]
    exact List.map_congr_left fun s hs => Column.length_align fill (h s hs)
  have hrow := isRow_rowText (t.map fun s => (s.column rows).align fill (text s))
  rwa [hwidths] at hrow

/-- The lines that show some rows, without a note. -/
def rowLines (rows : Nat) (t : Table) : List Text :=
  rowText (t.map fun s => (s.column rows).align ' ' s.name) ::
    rowText (t.map fun s => (s.column rows).align '-' []) ::
    (List.range rows).map fun n => rowText (t.map fun s =>
      (s.column rows).align ' ' ((s.column rows).cells.getD n []))

/-- All lines are these, and the note when rows are left out. -/
theorem lines_natCast (t : Table) (limit : Nat) : t.lines limit =
    t.rowLines (min t.rows limit) ++ if limit < t.rows then
      ["... and ".toList ++ Decimal.ofNat (t.rows - limit) ++ " more rows".toList] else [] := by
  have hnote : t.note limit = if limit < t.rows then
      ["... and ".toList ++ Decimal.ofNat (t.rows - limit) ++ " more rows".toList] else [] := by
    unfold note
    by_cases h : limit < t.rows
    · have hcount : (t.rows : Int) - limit = ((t.rows - limit : Nat) : Int) := by omega
      rw [if_pos (by omega), if_pos h, hcount]
      rfl
    · rw [if_neg (by omega), if_neg h]
  rw [← hnote, lines, columns, shownRows, Int.toNat_natCast, Nat.min_comm, rowLines]
  simp only [List.map_map]
  rfl

/-- A table is shown by the lines of its rows. -/
theorem isShownBy_rowLines (rows : Nat) (t : Table) : t.IsShownBy rows (t.rowLines rows) where
  length_eq := by simp [rowLines]
  header := by
    rintro line ⟨rfl⟩
    exact isRow_map_align ' ' fun s _ => Column.length_name_le_width (s.column rows)
  ruler := by
    rintro line ⟨rfl⟩
    have hdashes : (t.widths rows).map (fun width => List.replicate width '-')
        = t.map fun s => (s.column rows).align '-' [] := by
      rw [widths, List.map_map]
      exact List.map_congr_left fun s _ => ((s.column rows).align_nil '-').symm
    rw [hdashes]
    exact isRow_map_align '-' fun s _ => Nat.zero_le _
  row := by
    intro n hn line hline
    rw [rowLines, List.getElem?_cons_succ, List.getElem?_cons_succ, List.getElem?_map,
      List.getElem?_range hn] at hline
    obtain rfl := Option.some.inj hline
    simp only [Series.getD_cells_column hn]
    exact isRow_map_align ' ' fun s _ => s.length_textAt_le hn

/-- A table is shown by lines with aligned columns, each as wide as the longest one of its texts and
    no text longer than thirty characters. Behind them there is a note when rows are left out. -/
theorem aligned_lines (t : Table) (limit : Nat) :
    let rows := min t.rows limit
    (∃ ls, t.IsShownBy rows ls ∧ t.lines limit = ls ++ if limit < t.rows then
      ["... and ".toList ++ Decimal.ofNat (t.rows - limit) ++ " more rows".toList] else []) ∧
    (∀ s ∈ t, Text.IsLongest (s.column rows).width
      (s.name :: (s.values.take rows).map Cell.shown)) ∧
    (∀ v : Cell, v.shown.length ≤ 30) ∧
    (isRowLimit limit = true →
      t.renderWithin (some limit) = .ok (Text.join Text.lineFeed (t.lines limit))) := by
  intro rows
  refine ⟨⟨t.rowLines rows, isShownBy_rowLines rows t, lines_natCast t limit⟩,
    fun s _ => (s.column rows).isLongest_width, Cell.length_shown_le, fun hlimit => ?_⟩
  rw [renderWithin, if_pos hlimit, render]

example :
    let t : Table := [⟨"schema".toList, .text, [.missing, .text "HR".toList]⟩,
      ⟨"start".toList, .integer, [.integer 0, .integer 33]⟩]
    t.lines 1 = ["schema | start".toList, "------ | -----".toList, "       |     0".toList,
      "... and 1 more rows".toList] := by
  decide +kernel

end Table

end SqlScript
