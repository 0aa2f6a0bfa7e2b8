import SqlScript.Proofs.Layout.Seam

namespace SqlScript

/-!
# The layout by what is written

The layout goes by the text of a script as it is there. It can as well go by the lines that are
written, in which words have another case and another length: `Sheet` are lines of text without any
pieces, and what there is to decide is decided by what stands in them so far. The decisions are the
same, whatever the cases are.

* `Sheet.addNodes` — nodes that are written right away;
* `Style.typeset` — a script that is formatted like this;
* `Draft.sheet` — the lines of a draft as they are written;
* `Draft.sheet_addNodes` — what is laid out and then written is what is written right away;
* `Style.typeset_eq_format` — the same of a script.
-/

/-! ### Lines of text -/

/-- Lines that are being written. -/
structure Sheet where
  /-- The lines that are complete. -/
  above : List Text
  /-- The last line. -/
  current : Text
  /-- The indentation of the next line. -/
  indent : Int
  /-- Whether a comment was written last that needs a line break after it. -/
  afterLineComment : Bool
  /-- The first malformed block that was met. -/
  fault : Option StructureError

namespace Sheet

/-- Nothing was written yet. -/
def start : Sheet := ⟨[], [], 0, false, none⟩

/-- All lines so far. -/
def lines (d : Sheet) : List Text := d.above ++ [d.current]

/-- Whether a text written now would be the first one of its line, or comes after a space. -/
def isFresh (d : Sheet) : Bool := Text.isBlank d.current || Text.endsInSpace d.current

/-- The sheet with some more text. -/
def write (d : Sheet) (t : Text) : Sheet :=
  { d with current := d.current ++ t, afterLineComment := false }

/-- The sheet with a space, unless it is at the start of a line. -/
def space (d : Sheet) : Sheet := if d.isFresh then d else d.write [' ']

/-- The sheet with a new last line. A blank one is used again. -/
def breakLine (d : Sheet) : Sheet :=
  { d with
    above := if Text.isBlank d.current then d.above else d.above ++ [d.current]
    current := Text.spaces d.indent.toNat }

/-- The sheet with a new last line, after its indentation was changed by some levels. -/
def startLine (s : Spacing) (levels : Int) (d : Sheet) : Sheet :=
  breakLine { d with indent := d.indent + levels * s.indentWidth }

/-- The lines without the last one, when that is blank. -/
def dropBlankLast (ls : List Text) : List Text :=
  if ls.getLast?.any Text.isBlank then ls.dropLast else ls

/-- The lines without the blank ones at the end. The first line stays. -/
def dropBlankEnd : List Text → List Text
  | [] => []
  | l :: rest => l :: (rest.reverse.dropWhile Text.isBlank).reverse

/-- The sheet with the lines of a block, one level deeper, and a new last line after them. -/
def insert (s : Spacing) (ls : List Text) (d : Sheet) : Sheet :=
  let kept := if 1 < ls.length then dropBlankLast ls else ls
  let deeper := kept.map (Text.spaces (d.indent + s.indentWidth).toNat ++ ·)
  { d with
    above := d.above ++ d.current :: dropBlankLast deeper
    current := Text.spaces d.indent.toNat }

/-- The sheet with the fault noted, unless it has one already. -/
def note (fault : Option StructureError) (d : Sheet) : Sheet := { d with fault := d.fault.or fault }

/-- The lines that were written. A line comment keeps the empty line after it. -/
def finish (d : Sheet) : List Text := if d.afterLineComment then d.lines else dropBlankEnd d.lines

/-! ### Nodes -/

/-- The sheet with a space in front of the next token, unless it joins the one before it or is the
    colon of the label. -/
def separate (joined isLabelColon : Bool) (d : Sheet) : Sheet :=
  if joined || isLabelColon then d else d.space

/-- The sheet with a word, a literal, an operator or a single colon. -/
def addWord (c : Casing) (s : Spacing) (f : Frame) (position : Nat) (joined : Bool) (t : Token)
    (d : Sheet) : Sheet :=
  let keyword := t.kind.isKeyword && !f.singleLine
  let breaks := keyword && f.isAfterGoverning position
  let opened :=
    if breaks then d.startLine s (if s.newLineLists then -1 else 0)
    else d.separate joined (t.kind == .colon && f.isLabelColon position)
  let written := opened.write (c.apply t)
  if s.newLineLists && (breaks || (keyword && f.isGoverning position)) then written.startLine s 1
  else written

/-- The sheet with a comment. One that ends with its line is followed by a new line. -/
def addComment (s : Spacing) (joined : Bool) (t : Token) (d : Sheet) : Sheet :=
  let written := (d.separate joined false).write t.text
  if t.isLineComment then { written with afterLineComment := true }.startLine s 0 else written

/-- The sheet with a comma, which a new line follows where lists take lines of their own. -/
def addComma (s : Spacing) (t : Token) (d : Sheet) : Sheet :=
  let written := d.write t.text
  if s.newLineLists then written.startLine s 0 else written

/-- The sheet with one more token. -/
def addToken (c : Casing) (s : Spacing) (f : Frame) (position : Nat) (joined : Bool) (t : Token)
    (d : Sheet) : Sheet :=
  match t.kind with
  | .comma => d.addComma s t
  | .dot | .openParen | .closeParen => d.write t.text
  | .comment => d.addComment s joined t
  | _ => d.addWord c s f position joined t

/-- The sheet with a block whose interior was written as `inner`. -/
def addBlock (c : Casing) (s : Spacing) (f : Frame) (form : BlockForm) (offset : Int)
    (d inner : Sheet) : Sheet :=
  match form with
  | .empty => d.note (some (.emptyBlock offset))
  | .single t => d.write ('(' :: (c.apply t ++ [')']))
  | .expanded startsWithKeyword _ =>
    let opened := ((if startsWithKeyword then d.space else d).note inner.fault).write ['(']
    (opened.insert s inner.finish).write [')']
  | .compact =>
    let noted := d.note inner.fault
    match inner.finish with
    | [line] => if f.isCreate then ((noted.write ['(']).insert s [line]).write [')']
                else noted.write ('(' :: (line ++ [')']))
    | ls => ((noted.write ['(']).insert s ls).write [')']

mutual

/-- The sheet with a node at the given position of its sequence. -/
def addNode (c : Casing) (s : Spacing) (f : Frame) (position : Nat) (joined : Bool) (d : Sheet) :
    Node → Sheet
  | .leaf t => d.addToken c s f position joined t
  | .block interior span =>
    let form := blockForm f interior
    let inner := start.addNodes c (form.spacing s) (Frame.ofNodes interior) 0 false interior
    d.addBlock c s f form span.start inner

/-- The sheet with the nodes of a sequence from the given position on. -/
def addNodes (c : Casing) (s : Spacing) (f : Frame) (position : Nat) (joined : Bool) (d : Sheet) :
    List Node → Sheet
  | [] => d
  | n :: rest =>
    (d.addNode c s f position joined n).addNodes c s f (position + 1) (f.joinsNext position n) rest

end

/-- The lines with a semicolon at the end of the last one. -/
def terminated (ls : List Text) : List Text := ls.dropLast ++ [(ls.getLast?.getD []) ++ [';']]

end Sheet

/-! ### Scripts -/

/-- The lines of a sequence of nodes as they are written. -/
def Node.typeset (c : Casing) (s : Spacing) (ns : List Node) : Except StructureError (List Text) :=
  let d := Sheet.start.addNodes c s (Frame.ofNodes ns) 0 false ns
  match d.fault with
  | some e => .error e
  | none => .ok d.finish

/-- The lines of a statement as they are written. -/
def Statement.typeset (c : Casing) (sp : Spacing) (s : Statement) :
    Except StructureError (List Text) := do
  let nodes ← Node.ofTokens s.tokens
  let ls ← Node.typeset c sp nodes
  return if s.significant.isEmpty then Sheet.dropBlankEnd ls
    else if s.isTerminated then Sheet.terminated ls
    else ls

namespace Style

/-- The lines of statements as they are written, after the statement `previous`. -/
def typesetAll (style : Style) (previous : Option Statement) :
    List (Statement × Int) → Except StructureError (List Text)
  | [] => .ok []
  | (s, indent) :: rest => do
    let gap : List Text := if style.separates previous s then [[]] else []
    let own ← s.typeset style.casing style.spacing
    let others ← style.typesetAll (some s) rest
    return gap ++ own.map (Text.spaces indent.toNat ++ ·) ++ others

/-- The text formatted by what is written of it. -/
def typeset (style : Style) (t : Text) : Except StructureError Text :=
  let statements := (Script.ofText t).indentations style.spacing.indentWidth
  (style.typesetAll none statements).map fun ls =>
    Text.join (Text.lineBreak t) (ls.map Text.trimEnd)

end Style

/-! ### What is written of a draft -/

namespace Line

variable (c : Casing)

/-- An indentation is written as spaces. -/
theorem shown_indented (width : Int) : shown c (indented width) = Text.spaces width.toNat :=
  List.append_nil _

/-- Whether the last line is dropped does not depend on the case. -/
theorem map_shown_dropBlankLast (ls : List Line) :
    (dropBlankLast ls).map (shown c) = Sheet.dropBlankLast (ls.map (shown c)) := by
  have hlast : (ls.map (shown c)).getLast?.any Text.isBlank = ls.getLast?.any isBlank := by
    rw [List.getLast?_map, Option.any_map]
    exact congrArg (Option.any · _) (funext (isBlank_shown c))
  unfold dropBlankLast Sheet.dropBlankLast
  rw [hlast]
  split
  · exact List.map_dropLast
  · rfl

/-- Which lines are dropped at the end does not depend on the case. -/
theorem map_shown_dropBlankEnd (ls : List Line) :
    (dropBlankEnd ls).map (shown c) = Sheet.dropBlankEnd (ls.map (shown c)) := by
  cases ls with
  | nil => rfl
  | cons l rest =>
    have hblank : (Text.isBlank ∘ shown c) = isBlank := funext (isBlank_shown c)
    rw [dropBlankEnd, List.map_cons, List.map_cons, Sheet.dropBlankEnd, ← List.map_reverse,
      List.dropWhile_map, hblank, List.map_reverse]

/-- Lines that are indented are written with spaces in front of them. -/
theorem map_shown_indented (width : Int) (ls : List Line) :
    (ls.map (indented width ++ ·)).map (shown c)
      = (ls.map (shown c)).map (Text.spaces width.toNat ++ ·) := by
  rw [List.map_map, List.map_map]
  refine List.map_congr_left fun l _ => ?_
  show shown c (indented width ++ l) = _
  rw [shown_append, shown_indented]
  rfl

end Line

namespace Draft

/-- The lines of the draft as they are written. -/
def sheet (c : Casing) (d : Draft) : Sheet :=
  ⟨d.above.map (Line.shown c), d.current.shown c, d.indent, d.afterLineComment, d.fault⟩

variable {c : Casing} {s : Spacing} {f : Frame} {position : Nat} {joined : Bool} {t : Token}

/-- A sheet has the lines of the draft, as they are written. -/
theorem lines_sheet (d : Draft) : (d.sheet c).lines = d.lines.map (Line.shown c) := by
  simp [Sheet.lines, lines, sheet]

/-- A sheet tells from what is written whether a space is needed. -/
theorem isFresh_sheet (d : Draft) : (d.sheet c).isFresh = d.isFresh := by
  unfold Sheet.isFresh isFresh
  rw [← Line.isBlank_shown c, ← Line.endsInSpace_shown c]
  rfl

/-- A piece is written by writing what it shows. -/
theorem sheet_put (d : Draft) (p : Piece) : (d.put p).sheet c = (d.sheet c).write (p.shown c) := by
  simp [put, sheet, Sheet.write, Line.shown]

/-- Pieces that are put one after the other are written as one text. -/
theorem sheet_putAll_put (d : Draft) (l : Line) (p : Piece) :
    ((d.putAll l).put p).sheet c = (d.sheet c).write (l.shown c ++ p.shown c) := by
  induction l generalizing d with
  | nil => exact sheet_put d p
  | cons q l ih =>
    show (((d.put q).putAll l).put p).sheet c = _
    rw [ih, sheet_put]
    simp [Sheet.write, Line.shown]

/-- A space is written where the draft gets one. -/
theorem sheet_space (d : Draft) : d.space.sheet c = (d.sheet c).space := by
  unfold space Sheet.space
  rw [isFresh_sheet]
  split
  · rfl
  · exact sheet_put d (.pad 1)

/-- A new line is started below the same lines. -/
theorem sheet_breakLine (d : Draft) : d.breakLine.sheet c = (d.sheet c).breakLine := by
  have hblank : Text.isBlank (d.sheet c).current = d.current.isBlank := Line.isBlank_shown c _
  unfold breakLine Sheet.breakLine
  rw [hblank]
  split <;> simp [sheet, Line.shown_indented]

/-- A new line of a sheet is started with the same indentation. -/
theorem sheet_startLine (d : Draft) (levels : Int) :
    (d.startLine s levels).sheet c = (d.sheet c).startLine s levels :=
  sheet_breakLine { d with indent := d.indent + levels * s.indentWidth }

/-- The lines of a block are inserted as they are written. -/
theorem sheet_insert (d : Draft) (ls : List Line) :
    (d.insert s ls).sheet c = (d.sheet c).insert s (ls.map (Line.shown c)) := by
  have hkept : (if 1 < ls.length then Line.dropBlankLast ls else ls).map (Line.shown c)
      = if 1 < (ls.map (Line.shown c)).length then Sheet.dropBlankLast (ls.map (Line.shown c))
        else ls.map (Line.shown c) := by
    rw [List.length_map]
    split
    · exact Line.map_shown_dropBlankLast c ls
    · rfl
  unfold insert Sheet.insert sheet
  simp only [List.map_append, List.map_cons, Line.map_shown_dropBlankLast, Line.map_shown_indented,
    hkept, Line.shown_indented]

/-- A fault is noted in both. -/
theorem sheet_note (d : Draft) (fault : Option StructureError) :
    (d.note fault).sheet c = (d.sheet c).note fault := rfl

/-- A finished sheet has the lines of the finished draft. -/
theorem finish_sheet (d : Draft) : (d.sheet c).finish = d.finish.map (Line.shown c) := by
  unfold Sheet.finish finish
  rw [lines_sheet]
  split
  · rename_i h
    exact (congrArg (List.map _) (if_pos h)).symm
  · rename_i h
    rw [← Line.map_shown_dropBlankEnd]
    exact (congrArg (List.map _) (if_neg h)).symm

/-! ### Nodes -/

/-- A space separates the next token where it does in the draft. -/
theorem sheet_separate (d : Draft) (isLabelColon : Bool) :
    (d.separate joined isLabelColon).sheet c = (d.sheet c).separate joined isLabelColon := by
  unfold separate Sheet.separate
  split
  · rfl
  · exact sheet_space d

/-- A word is written with the same line breaks around it. -/
theorem sheet_addWord (d : Draft) : (d.addWord s f position joined t).sheet c
    = (d.sheet c).addWord c s f position joined t := by
  unfold addWord Sheet.addWord
  simp only
  -- The lines before and after the word depend on the word and on its place alone.
  split <;> split <;> simp only [sheet_startLine, sheet_put, sheet_separate] <;> rfl

/-- A comment is written with the same line break behind it. -/
theorem sheet_addComment (d : Draft) :
    (d.addComment s joined t).sheet c = (d.sheet c).addComment s joined t := by
  have hput : ((d.separate joined false).put (.verbatim t)).sheet c
      = ((d.sheet c).separate joined false).write t.text := by
    rw [sheet_put, sheet_separate]
    rfl
  unfold addComment Sheet.addComment
  simp only
  rw [← hput]
  split
  · rw [sheet_startLine]
    rfl
  · rfl

/-- A comma is written with the same line break behind it. -/
theorem sheet_addComma (d : Draft) : (d.addComma s t).sheet c = (d.sheet c).addComma s t := by
  unfold addComma Sheet.addComma
  simp only
  split <;> simp only [sheet_startLine, sheet_put] <;> rfl

/-- A token is written as it is laid out. -/
theorem sheet_addToken (d : Draft) : (d.addToken s f position joined t).sheet c
    = (d.sheet c).addToken c s f position joined t := by
  unfold addToken Sheet.addToken
  cases t.kind with
  | comma => exact sheet_addComma d
  | dot | openParen | closeParen => exact sheet_put d (.verbatim t)
  | comment => exact sheet_addComment d
  | _ => exact sheet_addWord d

/-- A block is written as it is laid out. -/
theorem sheet_addBlock (d inner : Draft) (form : BlockForm) (offset : Int) :
    (d.addBlock s f form offset inner).sheet c
      = (d.sheet c).addBlock c s f form offset (inner.sheet c) := by
  have henclosed : ∀ (e : Draft) (l : Line), ((e.putAll (.openParen :: l)).put .closeParen).sheet c
      = (e.sheet c).write ('(' :: (l.shown c ++ [')'])) := fun e l =>
    sheet_putAll_put e (.openParen :: l) .closeParen
  cases form with
  | empty => rfl
  | single t =>
    have htext : Line.shown c [.cased t] = c.apply t := List.append_nil _
    rw [Sheet.addBlock, ← htext]
    exact henclosed d [.cased t]
  | expanded startsWithKeyword asList =>
    simp only [addBlock, Sheet.addBlock, finish_sheet]
    rw [sheet_put, sheet_insert, sheet_put, sheet_note]
    split
    · rw [sheet_space]
      rfl
    · rfl
  | compact =>
    have hinsert : ∀ ls, ((((d.note inner.fault).put .openParen).insert s ls).put .closeParen).sheet c
        = ((((d.sheet c).note inner.fault).write ['(']).insert s (ls.map (Line.shown c))).write
          [')'] := by
      intro ls
      rw [sheet_put, sheet_insert, sheet_put, sheet_note]
      rfl
    simp only [addBlock, Sheet.addBlock, finish_sheet]
    -- A single line is written between the parentheses, where no object is created.
    rcases inner.finish with _ | ⟨line, _ | ⟨other, rest⟩⟩
    · exact hinsert []
    · simp only [List.map_cons, List.map_nil]
      split
      · exact hinsert [line]
      · exact henclosed (d.note inner.fault) line
    · exact hinsert (line :: other :: rest)

mutual

/-- A node is written as it is laid out. -/
theorem sheet_addNode (c : Casing) (s : Spacing) (f : Frame) (position : Nat) (joined : Bool)
    (d : Draft) : (n : Node) → (d.addNode s f position joined n).sheet c
      = (d.sheet c).addNode c s f position joined n
  | .leaf t => by
    rw [addNode, Sheet.addNode]
    exact sheet_addToken d
  | .block interior span => by
    rw [addNode, Sheet.addNode, sheet_addBlock,
      sheet_addNodes c _ (Frame.ofNodes interior) 0 false start interior]
    rfl

/-- Nodes are written as they are laid out. -/
theorem sheet_addNodes (c : Casing) (s : Spacing) (f : Frame) (position : Nat) (joined : Bool)
    (d : Draft) : (ns : List Node) → (d.addNodes s f position joined ns).sheet c
      = (d.sheet c).addNodes c s f position joined ns
  | [] => by rw [addNodes, Sheet.addNodes]
  | n :: rest => by
    rw [addNodes, Sheet.addNodes, sheet_addNodes c s f _ _ _ rest,
      sheet_addNode c s f position joined d n]

end

end Draft

/-! ### Statements and scripts -/

/-- The lines of nodes are those that are laid out, as they are written. -/
theorem Node.typeset_eq_layOut (c : Casing) (s : Spacing) (ns : List Node) :
    Node.typeset c s ns = (Node.layOut s ns).map (List.map (Line.shown c)) := by
  have hsheet : Sheet.start.addNodes c s (Frame.ofNodes ns) 0 false ns = (Node.draft s ns).sheet c :=
    (Draft.sheet_addNodes c s _ 0 false .start ns).symm
  have hfault : ((Node.draft s ns).sheet c).fault = (Node.draft s ns).fault := rfl
  unfold Node.typeset Node.layOut
  simp only [hsheet, hfault]
  cases (Node.draft s ns).fault with
  | some e => rfl
  | none => exact congrArg Except.ok (Draft.finish_sheet _)

/-- The semicolon is written at the end of the last line. -/
theorem map_shown_terminated (c : Casing) (ls : List Line) :
    (terminated ls).map (Line.shown c) = Sheet.terminated (ls.map (Line.shown c)) := by
  have hlast : Line.shown c (ls.getLast?.getD []) = (ls.map (Line.shown c)).getLast?.getD [] := by
    rw [List.getLast?_map]
    cases ls.getLast? <;> rfl
  rw [terminated, Sheet.terminated, List.map_append, List.map_dropLast, List.map_singleton,
    Line.shown_append, hlast]
  rfl

/-- The lines of a statement are those that are laid out, as they are written. -/
theorem Statement.typeset_eq_layOut (c : Casing) (sp : Spacing) (s : Statement) :
    s.typeset c sp = (s.layOut sp).map (List.map (Line.shown c)) := by
  unfold typeset layOut
  cases Node.ofTokens s.tokens with
  | error e => rfl
  | ok ns =>
    simp only [bind, Except.bind, Node.typeset_eq_layOut]
    cases Node.layOut sp ns with
    | error e => rfl
    | ok ls =>
      simp only [Except.map, pure, Except.pure, ← map_shown_terminated, ← Line.map_shown_dropBlankEnd]
      split
      · rfl
      · split <;> rfl

/-- The lines of statements, with the empty lines between them, are those that are laid out. -/
theorem Style.typesetAll_eq_layOut (style : Style) (previous : Option Statement)
    (ss : List (Statement × Int)) : style.typesetAll previous ss
      = (style.layOut previous ss).map (List.map (Line.shown style.casing)) := by
  induction ss generalizing previous with
  | nil => rfl
  | cons p rest ih =>
    obtain ⟨s, indent⟩ := p
    have hgap : (if style.separates previous s then [[]] else []).map (Line.shown style.casing)
        = if style.separates previous s then [[]] else [] := by
      split <;> rfl
    rw [typesetAll, layOut, Statement.typeset_eq_layOut, ih]
    cases s.layOut style.spacing with
    | error e => rfl
    | ok own =>
      cases style.layOut (some s) rest with
      | error e => rfl
      | ok others =>
        simp only [bind, Except.bind, Except.map, pure, Except.pure, List.map_append, hgap,
          Line.map_shown_indented]

/-- Formatting by what is written is formatting: where lines break and where spaces are does not
    depend on the cases that are chosen. -/
theorem Style.typeset_eq_format (style : Style) (t : Text) : style.typeset t = style.format t := by
  unfold typeset format Script.format Script.layOut
  simp only [typesetAll_eq_layOut]
  cases style.layOut none ((Script.ofText t).indentations style.spacing.indentWidth) with
  | error e => rfl
  | ok ls =>
    simp only [Except.map, List.map_map]
    rfl

end SqlScript
