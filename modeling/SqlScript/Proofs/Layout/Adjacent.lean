import SqlScript.Proofs.Layout.Seam

namespace SqlScript

/-!
# Seams of drafts

What is added to a draft has to fit behind the lexeme at the end of its last line. Spaces and new
lines always do, and so do the lines of a block.

* `IsSeam` — what a relation between lexemes and characters has to hold of, wherever they come from;
* `Draft.IsClean` — whether the pieces of a draft are closed, and no comment takes in what is put
  next; `Draft.EndsClean` says the same of the lines that a draft is left with;
* `Draft.Fits` — whether a text fits behind the last lexeme of a draft;
* `Draft.linked_put`, `Draft.IsClean.linked_spaces`, `Draft.IsClosed.linked_startLine` and
  `Draft.IsClosed.linked_insert` — what the relation asks of each of these.
-/

/-! ### Relations -/

/-- What a relation between a lexeme and the character behind it holds of in any case. The lexeme
    is closed, and is no comment up to the end of its line. -/
structure IsSeam (M : Lexeme → Char → Prop) : Prop where
  after_mark : ∀ {x d}, x.kind = .openParen ∨ x.kind = .comma → M x d
  before_mark : ∀ {x d}, x.isOpen = false → x.isLineComment = false →
    " (),;".toList.contains d = true → M x d
  before_dot : ∀ {x}, x.isOpen = false → x.isLineComment = false → x.kind ≠ .number → M x '.'
  before_colon : ∀ {x}, x.isOpen = false → x.isLineComment = false → x.kind ≠ .colon → M x ':'
  before_word : ∀ {x d}, x.kind = .dot ∨ x.kind = .colon → startsWord d = true → M x d

/-! ### Drafts -/

namespace Draft

variable (c : Casing)

/-- Whether the relation holds in all lines of a draft. -/
def Linked (M : Lexeme → Char → Prop) (d : Draft) : Prop := ∀ l ∈ d.lines, Line.Linked c M l

/-- The lexeme that the next piece is right behind, none when a space is there. -/
def lastLexeme? (d : Draft) : Option Lexeme := Line.lastLexeme? c d.current

/-- Whether the relation holds of the last lexeme and the first character of a text. -/
def Fits (M : Lexeme → Char → Prop) (d : Draft) (w : Text) : Prop :=
  ∀ x ∈ d.lastLexeme? c, ∀ e ∈ w.head?, M x e

/-- Whether all pieces of a draft are closed. -/
def IsClosed (d : Draft) : Prop := ∀ l ∈ d.lines, ∀ p ∈ l, p.IsClosed c

/-- Whether all pieces of a draft are closed, and there is no comment that the next piece would
    belong to. -/
structure IsClean (d : Draft) : Prop where
  closed : d.IsClosed c
  current : ∀ p ∈ d.current, p.isLineComment c = false

/-- Whether the lines of a draft end with no comment that what comes next would belong to, or a line
    was started for it. -/
def EndsClean (d : Draft) : Prop :=
  d.afterLineComment = false → ∀ l ∈ (d.lines.filter fun l => !l.isBlank).getLast?,
    ∀ p ∈ l, p.isLineComment c = false

variable {c}

/-- A piece is put at the end of the last line. -/
theorem lines_put (d : Draft) (p : Piece) : (d.put p).lines = d.above ++ [d.current ++ [p]] := rfl

/-- The last line is one of the lines. -/
theorem mem_lines_current (d : Draft) : d.current ∈ d.lines := by simp [lines]

/-- The pieces of the last line of a closed draft are closed. -/
theorem IsClosed.current {d : Draft} (h : d.IsClosed c) : ∀ p ∈ d.current, p.IsClosed c :=
  h _ d.mem_lines_current

/-- The last lexeme of a clean draft is closed, and is no comment up to the end of its line. -/
theorem IsClean.of_mem_lastLexeme? {d : Draft} (h : d.IsClean c) {x : Lexeme}
    (hx : x ∈ d.lastLexeme? c) : x.isOpen = false ∧ x.isLineComment = false := by
  obtain ⟨p, hp, hpx⟩ := Line.exists_of_mem_lastLexeme? hx
  refine ⟨(h.closed.current p hp x hpx).2, ?_⟩
  have := h.current p hp
  rwa [Piece.isLineComment, show p.lexeme? c = some x from hpx, Option.any_some] at this

/-- A draft without lines is clean. -/
theorem isClean_start : start.IsClean c := ⟨by simp [IsClosed, lines, start], by simp [start]⟩

/-- A draft has no line at the start for what comes next to belong to. -/
theorem endsClean_start : start.EndsClean c := by
  intro _ l hl
  simp [lines, start, Line.isBlank, Line.source, Text.isBlank] at hl

/-! ### Pieces -/

/-- A closed piece leaves a draft closed. -/
theorem IsClosed.put {d : Draft} (h : d.IsClosed c) {p : Piece} (hp : p.IsClosed c) :
    (d.put p).IsClosed c := by
  intro l hl q hq
  rw [lines_put] at hl
  rcases List.mem_append.mp hl with hl | hl
  · exact h l (List.mem_append_left _ hl) q hq
  · obtain rfl := List.mem_singleton.mp hl
    rcases List.mem_append.mp hq with hq | hq
    · exact h.current q hq
    · obtain rfl := List.mem_singleton.mp hq
      exact hp

/-- A closed piece that is no comment up to the end of its line leaves a draft clean. -/
theorem IsClean.put {d : Draft} (h : d.IsClean c) {p : Piece} (hp : p.IsClosed c)
    (hl : p.isLineComment c = false) : (d.put p).IsClean c := by
  refine ⟨h.closed.put hp, fun q hq => ?_⟩
  rcases List.mem_append.mp hq with hq | hq
  · exact h.current q hq
  · obtain rfl := List.mem_singleton.mp hq
    exact hl

/-- A draft that shows something in its last line ends with it. -/
theorem endsClean_put {d : Draft} {p : Piece} (hd : ∀ q ∈ d.current, q.isLineComment c = false)
    (hp : p.isLineComment c = false) (hshown : (d.put p).current.isBlank = false) :
    (d.put p).EndsClean c := by
  intro _ l hlast q hq
  change Line.isBlank (d.current ++ [p]) = false at hshown
  rw [lines_put, List.filter_append, List.filter_cons_of_pos (by simp [hshown])] at hlast
  obtain rfl : d.current ++ [p] = l := by simpa using hlast
  rcases List.mem_append.mp hq with hq | hq
  · exact hd q hq
  · obtain rfl := List.mem_singleton.mp hq
    exact hp

/-- A line with a piece that is not blank is not blank. -/
theorem isBlank_current_put {d : Draft} {p : Piece} (hp : Text.isBlank p.source = false) :
    (d.put p).current.isBlank = false := by
  have hsource : Line.source (d.current ++ [p]) = d.current.source ++ p.source := by
    simp [Line.source]
  rw [put, Line.isBlank, hsource, Text.isBlank_append, hp, Bool.and_false]

/-- With a lexeme of this kind at its end, a draft ends clean. -/
theorem IsClean.endsClean_put {d : Draft} (h : d.IsClean c) {p : Piece} (hp : p.IsClosed c)
    (hl : p.isLineComment c = false) {x : Lexeme} (hx : x ∈ p.lexeme? c) :
    (d.put p).EndsClean c := by
  refine Draft.endsClean_put h.current hl (isBlank_current_put ?_)
  rw [← hp.shown_not_isBlank hx]
  exact ((p.recased c).isBlank).symm

/-- What is put has to fit behind the last lexeme. -/
theorem linked_put {M : Lexeme → Char → Prop} {d : Draft} {p : Piece} :
    (d.put p).Linked c M ↔ d.Linked c M ∧ d.Fits c M (p.shown c) := by
  have hshown : Line.shown c [p] = p.shown c := List.append_nil _
  rw [Linked, lines_put, Linked, lines]
  simp only [List.mem_append, List.mem_singleton, or_imp, forall_and, forall_eq,
    Line.linked_append, Line.linked_singleton, true_and, hshown, Fits, lastLexeme?, and_assoc]

/-- The lexeme of a piece is the last one when the piece is put. -/
theorem lastLexeme?_put {d : Draft} {p : Piece} (hp : p.IsClosed c) {x : Lexeme}
    (hx : x ∈ p.lexeme? c) : (d.put p).lastLexeme? c = some x := by
  have hne : p.shown c ≠ [] := by
    rw [Piece.shown_of_lexeme? hx]
    exact (hp x hx).1.1
  rw [lastLexeme?, put, Line.lastLexeme?_concat hne]
  exact hx

/-! ### Spaces and lines -/

/-- Padding of width one is a space. -/
theorem shown_pad_one : (Piece.pad 1).shown c = [' '] := rfl

/-- A space leaves a draft clean. -/
theorem IsClean.spaces {d e : Draft} (h : d.IsClean c) (he : d.Spaces e) : e.IsClean c := by
  cases he with
  | joined => exact h
  | spaced _ => exact h.put (Piece.isClosed_pad c 1) rfl

/-- Nothing is right behind a lexeme where there is a space. -/
theorem IsClean.lastLexeme?_space {d : Draft} (h : d.IsClean c) :
    d.space.lastLexeme? c = none := by
  unfold Draft.space
  split
  · rename_i hfresh
    rw [Option.eq_none_iff_forall_not_mem]
    intro x hx
    rcases Bool.or_eq_true _ _ |>.mp hfresh with hblank | hspace
    · rw [lastLexeme?, Line.lastLexeme?_of_isBlank hblank h.closed.current] at hx
      exact absurd hx (by simp)
    · -- A line that ends with a space does not end with a lexeme.
      obtain ⟨ho, hl⟩ := h.of_mem_lastLexeme? hx
      rw [← Line.endsInSpace_shown c, Text.endsInSpace, Text.endsIn, beq_iff_eq,
        Line.getLast?_shown] at hspace
      obtain ⟨p, hp, hlast⟩ := Option.bind_eq_some_iff.mp hspace
      have hpx : x ∈ p.lexeme? c := by
        obtain ⟨q, hq, hqx⟩ := Option.bind_eq_some_iff.mp hx
        obtain rfl := Option.some.inj (hp.symm.trans hq)
        exact hqx
      have hmem : p ∈ d.current := (List.mem_filter.mp (List.mem_of_getLast? hp)).1
      rw [Piece.shown_of_lexeme? hpx] at hlast
      have := (h.closed.current p hmem x hpx).1.not_isBlank_of_mem_getLast? ho hl ' ' hlast
      exact absurd this (by decide)
  · have hne : (Piece.pad 1).shown c ≠ [] := by simp [shown_pad_one]
    rw [lastLexeme?, Draft.put, Line.lastLexeme?_concat hne]
    rfl

/-- A space does not change whether the relation holds in all lines, as anything closed may stand in
    front of it. -/
theorem IsClean.linked_spaces {M : Lexeme → Char → Prop} (hM : IsSeam M) {d e : Draft}
    (h : d.IsClean c) (he : d.Spaces e) : e.Linked c M ↔ d.Linked c M := by
  cases he with
  | joined => rfl
  | spaced _ =>
    rw [linked_put, shown_pad_one]
    refine and_iff_left fun x hx e he => ?_
    obtain ⟨ho, hl⟩ := h.of_mem_lastLexeme? hx
    obtain rfl : ' ' = e := by simpa using he
    exact hM.before_mark ho hl (by decide)

/-- A new line is put below the last one, or in its place when that is blank. -/
theorem lines_breakLine (d : Draft) : d.breakLine.lines
    = (if d.current.isBlank then d.above else d.above ++ [d.current]) ++ [Line.indented d.indent] :=
  rfl

/-- An indentation is closed. -/
theorem isClosed_indented (width : Int) : ∀ p ∈ Line.indented width, p.IsClosed c := by
  intro p hp
  obtain rfl := List.mem_singleton.mp hp
  exact Piece.isClosed_pad c _

/-- An indentation is blank. -/
theorem isBlank_indented (width : Int) : (Line.indented width).isBlank = true := by
  refine List.all_eq_true.mpr fun d hd => ?_
  have hspaces : (Line.indented width).source = Text.spaces width.toNat := List.append_nil _
  rw [hspaces] at hd
  rw [List.eq_of_mem_replicate hd]
  decide

/-- A new line is clean, whatever the line before it ends with. -/
theorem IsClosed.breakLine {d : Draft} (h : d.IsClosed c) : d.breakLine.IsClean c := by
  refine ⟨fun l hl => ?_, fun p hp => ?_⟩
  · rw [lines_breakLine] at hl
    rcases List.mem_append.mp hl with hl | hl
    · split at hl
      · exact h l (List.mem_append_left _ hl)
      · exact h l hl
    · obtain rfl := List.mem_singleton.mp hl
      exact isClosed_indented _
  · obtain rfl := List.mem_singleton.mp hp
    rfl

/-- A new line does not change with what a draft ends. -/
theorem EndsClean.breakLine {d : Draft} (h : d.EndsClean c) : d.breakLine.EndsClean c := by
  intro hflag l hl
  refine h hflag l ?_
  have hdrop : [Line.indented d.indent].filter (fun l => !l.isBlank) = [] := by
    simp [isBlank_indented]
  rw [lines_breakLine, List.filter_append, hdrop, List.append_nil] at hl
  rw [lines, List.filter_append]
  split at hl
  · rename_i hblank
    simpa [hblank] using hl
  · rwa [List.filter_append] at hl

/-- No lexeme is in front of what comes next on a new line. -/
theorem lastLexeme?_breakLine (d : Draft) : d.breakLine.lastLexeme? c = none :=
  Line.lastLexeme?_indented _

/-- A new line does not change whether the relation holds in all lines. -/
theorem IsClosed.linked_breakLine {M : Lexeme → Char → Prop} {d : Draft} (h : d.IsClosed c) :
    d.breakLine.Linked c M ↔ d.Linked c M := by
  have hindented : Line.Linked c M (Line.indented d.indent) := Line.linked_singleton _
  rw [Linked, lines_breakLine, Linked, lines]
  split
  · rename_i hblank
    have hcurrent : Line.Linked c M d.current := Line.linked_of_isBlank hblank h.current
    simp only [List.mem_append, List.mem_singleton, or_imp, forall_and, forall_eq, hindented,
      hcurrent]
  · simp only [List.mem_append, List.mem_singleton, or_imp, forall_and, forall_eq, hindented,
      and_true]

/-- A new line is clean, however deep it is indented. -/
theorem IsClosed.startLine {d : Draft} (h : d.IsClosed c) (s : Spacing) (levels : Int) :
    (d.startLine s levels).IsClean c :=
  breakLine (d := { d with indent := d.indent + levels * s.indentWidth }) h

/-- A new line is clean, with the indentation changed by any levels. -/
theorem EndsClean.startLine {d : Draft} (h : d.EndsClean c) (s : Spacing) (levels : Int) :
    (d.startLine s levels).EndsClean c :=
  breakLine (d := { d with indent := d.indent + levels * s.indentWidth }) h

/-- No lexeme is in front of what comes next on a line that was started. -/
theorem lastLexeme?_startLine (d : Draft) (s : Spacing) (levels : Int) :
    (d.startLine s levels).lastLexeme? c = none :=
  lastLexeme?_breakLine _

/-- A line that was started does not change whether the relation holds in all lines. -/
theorem IsClosed.linked_startLine {M : Lexeme → Char → Prop} {d : Draft} (h : d.IsClosed c)
    (s : Spacing) (levels : Int) : (d.startLine s levels).Linked c M ↔ d.Linked c M :=
  linked_breakLine (d := { d with indent := d.indent + levels * s.indentWidth }) h

/-! ### Lines of blocks -/

/-- Pieces that are put leave the complete lines as they are. -/
theorem above_putAll (d : Draft) (l : Line) : (d.putAll l).above = d.above := by
  unfold putAll
  induction l generalizing d with
  | nil => rfl
  | cons p l ih => rw [List.foldl_cons, ih, Draft.put]

/-- Pieces are put behind each other in the last line. -/
theorem current_putAll (d : Draft) (l : Line) : (d.putAll l).current = d.current ++ l := by
  unfold putAll
  induction l generalizing d with
  | nil => simp
  | cons p l ih => rw [List.foldl_cons, ih, Draft.put, List.append_assoc, List.singleton_append]

/-- Closed pieces that are no comments up to the end of the line leave a draft clean. -/
theorem IsClean.putAll {d : Draft} (h : d.IsClean c) {l : Line} (hl : ∀ p ∈ l, p.IsClosed c)
    (hc : ∀ p ∈ l, p.isLineComment c = false) : (d.putAll l).IsClean c := by
  refine ⟨fun m hm q hq => ?_, fun q hq => ?_⟩
  · rw [lines, above_putAll, current_putAll] at hm
    rcases List.mem_append.mp hm with hm | hm
    · exact h.closed m (List.mem_append_left _ hm) q hq
    · obtain rfl := List.mem_singleton.mp hm
      rcases List.mem_append.mp hq with hq | hq
      · exact h.closed.current q hq
      · exact hl q hq
  · rw [current_putAll] at hq
    rcases List.mem_append.mp hq with hq | hq
    · exact h.current q hq
    · exact hc q hq

/-- A line that is put into another one has to fit there. -/
theorem linked_putAll {M : Lexeme → Char → Prop} {d : Draft} {l : Line} :
    (d.putAll l).Linked c M
      ↔ d.Linked c M ∧ Line.Linked c M l ∧ d.Fits c M (Line.shown c l) := by
  rw [Linked, lines, above_putAll, current_putAll, Linked, lines]
  simp only [List.mem_append, List.mem_singleton, or_imp, forall_and, forall_eq,
    Line.linked_append, Fits, lastLexeme?, and_assoc]

/-- The lines of a block stand one level deeper between the line that it starts on and a new one. -/
theorem lines_insert (s : Spacing) (ls : List Line) (d : Draft) : (d.insert s ls).lines
    = d.above ++ (d.current :: Line.dropBlankLast
        ((if 1 < ls.length then Line.dropBlankLast ls else ls).map
          (Line.indented (d.indent + s.indentWidth) ++ ·))) ++ [Line.indented d.indent] := rfl

/-- No line is new when a blank one is dropped at the end. -/
theorem mem_of_mem_dropBlankLast {ls : List Line} {l : Line} (h : l ∈ Line.dropBlankLast ls) :
    l ∈ ls := by
  unfold Line.dropBlankLast at h
  split at h
  · exact (List.dropLast_sublist ls).subset h
  · exact h

/-- The lines that are inserted are those of the block, with an indentation. -/
theorem forall_mem_insert {P : Line → Prop} {s : Spacing} {ls : List Line} {d : Draft}
    (hindented : ∀ width l, P (Line.indented width ++ l) ↔ P l)
    (hblank : ∀ l ∈ ls, l.isBlank = true → P l) :
    (∀ l ∈ (d.insert s ls).lines, P l) ↔
      (∀ l ∈ d.lines, P l) ∧ (∀ l ∈ ls, P l) ∧ P (Line.indented d.indent) := by
  have hkept : (∀ l ∈ (if 1 < ls.length then Line.dropBlankLast ls else ls), P l)
      ↔ ∀ l ∈ ls, P l := by
    split
    · exact Line.forall_mem_dropBlankLast hblank
    · rfl
  have hmem : ∀ l ∈ (if 1 < ls.length then Line.dropBlankLast ls else ls), l ∈ ls := by
    intro l hl
    split at hl
    · exact mem_of_mem_dropBlankLast hl
    · exact hl
  rw [lines_insert, lines]
  simp only [List.mem_append, List.mem_cons, or_imp, forall_and, forall_eq, List.not_mem_nil,
    or_false]
  rw [Line.forall_mem_dropBlankLast]
  · simp only [List.forall_mem_map, hindented, hkept]
    tauto
  · -- A line of the block that is blank with its indentation is blank without it.
    intro m hm hmblank
    obtain ⟨l, hl, rfl⟩ := List.mem_map.mp hm
    rw [hindented]
    refine hblank l (hmem l hl) ?_
    have : Line.source (Line.indented (d.indent + s.indentWidth) ++ l)
        = Line.source (Line.indented (d.indent + s.indentWidth)) ++ l.source :=
      List.flatMap_append
    rw [Line.isBlank, this, Text.isBlank_append, Bool.and_eq_true] at hmblank
    exact hmblank.2

/-- Behind the closed lines of a block a draft is clean. -/
theorem IsClosed.insert {d : Draft} (h : d.IsClosed c) (s : Spacing) {ls : List Line}
    (hls : ∀ l ∈ ls, ∀ p ∈ l, p.IsClosed c) : (d.insert s ls).IsClean c := by
  refine ⟨(forall_mem_insert (fun width l => ?_) fun l hl _ => hls l hl).mpr
    ⟨h, hls, isClosed_indented _⟩, fun p hp => ?_⟩
  · simp only [List.mem_append, or_imp, forall_and, and_iff_right (isClosed_indented width)]
  obtain rfl := List.mem_singleton.mp hp
  rfl

/-- The relation holds in all lines with those of a block exactly when it holds in both. -/
theorem IsClosed.linked_insert {M : Lexeme → Char → Prop} {d : Draft} (s : Spacing)
    {ls : List Line} (hls : ∀ l ∈ ls, ∀ p ∈ l, p.IsClosed c) :
    (d.insert s ls).Linked c M ↔ d.Linked c M ∧ ∀ l ∈ ls, Line.Linked c M l := by
  rw [Linked, forall_mem_insert (fun _ _ => Line.linked_indented_append)
    fun l hl hblank => Line.linked_of_isBlank hblank (hls l hl)]
  rw [and_iff_left (show Line.Linked c M (Line.indented d.indent) from Line.linked_singleton _)]
  rfl

/-! ### Finished drafts -/

/-- A finished draft has no other lines than the draft. -/
theorem mem_lines_of_mem_finish {d : Draft} {l : Line} (h : l ∈ d.finish) : l ∈ d.lines := by
  unfold finish at h
  split at h
  · exact h
  · exact Line.mem_dropBlankEnd h

/-- Whether the relation holds in all lines does not change when a draft is finished. -/
theorem IsClosed.linked_finish {M : Lexeme → Char → Prop} {d : Draft} (h : d.IsClosed c) :
    (∀ l ∈ d.finish, Line.Linked c M l) ↔ d.Linked c M := by
  unfold finish Linked
  split
  · rfl
  · exact Line.forall_mem_dropBlankEnd fun l hl hblank => Line.linked_of_isBlank hblank (h l hl)

/-- The last line that is left is blank, or it is the last one that is not. -/
theorem getLast?_dropBlankEnd {ls : List Line} {l : Line}
    (h : l ∈ (Line.dropBlankEnd ls).getLast?) :
    l.isBlank = true ∨ l ∈ (ls.filter fun l => !l.isBlank).getLast? := by
  cases ls with
  | nil => exact absurd h (by simp [Line.dropBlankEnd])
  | cons m rest =>
    by_cases hl : l.isBlank = true
    · exact .inl hl
    · right
      have hblank : (rest.reverse.takeWhile Line.isBlank).reverse.filter (fun l => !l.isBlank)
          = [] := by
        rw [List.filter_eq_nil_iff]
        intro k hk
        have := List.all_eq_true.mp List.all_takeWhile k (List.mem_reverse.mp hk)
        simp [this]
      have hsplit : rest = (rest.reverse.dropWhile Line.isBlank).reverse
          ++ (rest.reverse.takeWhile Line.isBlank).reverse := by
        rw [← List.reverse_append, List.takeWhile_append_dropWhile, List.reverse_reverse]
      obtain ⟨before, hbefore⟩ := List.getLast?_eq_some_iff.mp h
      rw [Line.dropBlankEnd] at hbefore
      rw [hsplit, ← List.cons_append, hbefore, List.filter_append, List.filter_append, hblank,
        List.append_nil, List.filter_cons_of_pos (by simp [hl])]
      simp

/-- No comment takes in what comes behind the lines of a draft. -/
theorem EndsClean.finish {d : Draft} (h : d.EndsClean c)
    (hd : ∀ p ∈ d.current, p.isLineComment c = false) :
    ∀ l ∈ d.finish.getLast?, ∀ p ∈ l, p.isLineComment c = false := by
  intro l hl p hp
  unfold Draft.finish at hl
  split at hl
  · obtain rfl : d.current = l := by simpa [lines] using hl
    exact hd p hp
  · rename_i hflag
    rcases getLast?_dropBlankEnd hl with hblank | hlast
    · exact Line.isLineComment_of_isBlank hblank p hp
    · exact h (by simpa using hflag) l hlast p hp

end Draft

end SqlScript
