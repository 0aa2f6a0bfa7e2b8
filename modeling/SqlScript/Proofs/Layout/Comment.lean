import SqlScript.Proofs.Layout.Glue

namespace SqlScript

/-!
# Comments at the end of their lines

A comment that ends with its line would take in whatever is written behind it. The layout starts a
line behind each of them, and the line that was started is kept until something is put there, be it
the parenthesis that closes a block or the semicolon behind a statement.

* `Line.EndsComments` — whether no comment of a line has anything behind it;
* `Draft.EndsComments` — the same of a draft, whose last line has no such comment at all;
* `Draft.isInvariant_setsOff` — laying out nodes keeps it so;
* `Style.lineComments_format` — no comment of a script has anything behind it in its line.
-/

/-! ### Pieces -/

/-- The token of a piece, if it is a comment that ends with its line. -/
def Piece.lineComment? : Piece → Option Token
  | verbatim t | cased t => Option.guard Token.isLineComment t
  | _ => none

/-- A piece is no such comment exactly when it has none, whatever the case is. -/
theorem Piece.isLineComment_eq_false_iff {c : Casing} {p : Piece} :
    p.isLineComment c = false ↔ p.lineComment? = none := by
  cases p with
  | verbatim t =>
    show t.lexeme.isLineComment = false ↔ _
    have hlexeme : t.lexeme.isLineComment = t.isLineComment := rfl
    simp [lineComment?, hlexeme]
  | cased t =>
    show (t.shownAs c).isLineComment = false ↔ _
    simp [lineComment?, t.isLineComment_shownAs]
  | _ => exact iff_of_true rfl rfl

/-- A token that is no `--` comment makes no piece that is one. -/
theorem Piece.lineComment?_verbatim {t : Token} (h : t.isLineComment = false) :
    (verbatim t).lineComment? = none := by
  simp [lineComment?, h]

/-- A token that is no `--` comment makes no piece that is one in another case. -/
theorem Piece.lineComment?_cased {t : Token} (h : t.isLineComment = false) :
    (cased t).lineComment? = none := by
  simp [lineComment?, h]

/-- The tokens of a text are not blank. -/
theorem Token.not_isBlank_of_mem_scan {u : Text} {t : Token} (h : t ∈ scan u) :
    Text.isBlank t.text = false := by
  obtain ⟨before, after, hsplit⟩ := List.append_of_mem h
  obtain ⟨rest, -, -, hread, -⟩ := Text.scan_split hsplit
  exact hread.not_isBlank

/-! ### Lines -/

namespace Line

/-- Whether no piece of the line but the last one is a comment that ends with its line. -/
def EndsComments (l : Line) : Prop := ∀ p ∈ l.dropLast, p.lineComment? = none

/-- In a line without such comments, none has anything behind it. -/
theorem endsComments_of_forall {l : Line} (h : ∀ p ∈ l, p.lineComment? = none) : l.EndsComments :=
  fun p hp => h p ((List.dropLast_sublist l).subset hp)

/-- Behind other pieces, such a comment may be the last one. -/
theorem endsComments_concat {l : Line} (h : ∀ p ∈ l, p.lineComment? = none) (p : Piece) :
    EndsComments (l ++ [p]) := by
  rwa [EndsComments, List.dropLast_concat]

/-- An indentation makes no difference. -/
theorem endsComments_indented_append {width : Int} {l : Line} :
    EndsComments (indented width ++ l) ↔ l.EndsComments := by
  cases l with
  | nil => exact iff_of_true (by simp [EndsComments, indented]) (by simp [EndsComments])
  | cons p l =>
    rw [EndsComments, List.dropLast_append_of_ne_nil (by simp)]
    simp [EndsComments, indented, Piece.lineComment?]

/-- A comment that ends with its line is the last piece of it. -/
theorem EndsComments.eq_nil {before after : Line} {p : Piece} {t : Token}
    (h : EndsComments (before ++ p :: after)) (ht : t ∈ p.lineComment?) : after = [] := by
  by_contra hafter
  have hmem : p ∈ (before ++ p :: after).dropLast := by
    rw [List.dropLast_append_of_ne_nil (by simp), List.dropLast_cons_of_ne_nil hafter]
    simp
  rw [h p hmem] at ht
  exact absurd ht (by simp)

end Line

/-! ### Drafts -/

namespace Draft

variable {c : Casing} {s : Spacing} {d : Draft} {p : Piece} {t : Token}

/-- Whether no comment of a draft has anything behind it, and the last line has none that would take
    in the next piece. -/
structure EndsComments (d : Draft) : Prop where
  above : ∀ l ∈ d.above, l.EndsComments
  current : ∀ p ∈ d.current, p.lineComment? = none

/-- Nothing was put behind a comment at the start. -/
theorem endsComments_start : start.EndsComments := ⟨by simp [start], by simp [start]⟩

/-- No comment in any line of such a draft has anything behind it. -/
theorem EndsComments.lines (h : d.EndsComments) : ∀ l ∈ d.lines, l.EndsComments := by
  intro l hl
  rcases List.mem_append.mp hl with hl | hl
  · exact h.above l hl
  · obtain rfl := List.mem_singleton.mp hl
    exact Line.endsComments_of_forall h.current

/-- The last line of such a draft has no comment in it, in whichever case. -/
theorem EndsComments.isLineComment (h : d.EndsComments) :
    ∀ p ∈ d.current, p.isLineComment c = false :=
  fun p hp => Piece.isLineComment_eq_false_iff.mpr (h.current p hp)

/-- When the draft is finished, no comment has anything behind it. -/
theorem EndsComments.finish (h : d.EndsComments) : ∀ l ∈ d.finish, l.EndsComments :=
  fun l hl => h.lines l (mem_lines_of_mem_finish hl)

/-- A piece that is no comment can be put at the end of the last line. -/
theorem EndsComments.put (h : d.EndsComments) (hp : p.lineComment? = none) :
    (d.put p).EndsComments := by
  refine ⟨h.above, fun q hq => ?_⟩
  rcases List.mem_append.mp hq with hq | hq
  · exact h.current q hq
  · obtain rfl := List.mem_singleton.mp hq
    exact hp

/-- The pieces of a line without comments can be put at the end of the last line. -/
theorem EndsComments.putAll (h : d.EndsComments) {l : Line} (hl : ∀ p ∈ l, p.lineComment? = none) :
    (d.putAll l).EndsComments := by
  refine ⟨by rw [above_putAll]; exact h.above, fun q hq => ?_⟩
  rw [current_putAll] at hq
  exact (List.mem_append.mp hq).elim (h.current q) (hl q)

/-- A new line has no comments, whatever there is at the end of the one above. -/
theorem endsComments_breakLine (h : ∀ l ∈ d.lines, l.EndsComments) : d.breakLine.EndsComments := by
  refine ⟨fun l hl => ?_, fun p hp => ?_⟩
  · unfold breakLine at hl
    simp only at hl
    split at hl
    · exact h l (List.mem_append_left _ hl)
    · exact h l hl
  · obtain rfl := List.mem_singleton.mp hp
    rfl

/-- A new line has no comments, with the indentation changed by any levels. -/
theorem endsComments_startLine (h : ∀ l ∈ d.lines, l.EndsComments) (s : Spacing) (levels : Int) :
    (d.startLine s levels).EndsComments :=
  endsComments_breakLine (d := { d with indent := d.indent + levels * s.indentWidth }) h

/-- The lines of a block can be inserted, as a new line is started behind them. -/
theorem EndsComments.insert (h : d.EndsComments) (s : Spacing) {ls : List Line}
    (hls : ∀ l ∈ ls, l.EndsComments) : (d.insert s ls).EndsComments := by
  have hindented : Line.EndsComments (Line.indented d.indent) :=
    Line.endsComments_concat (l := []) (by simp) _
  have hlines := (forall_mem_insert (s := s) (fun _ _ => Line.endsComments_indented_append)
    fun l hl _ => hls l hl).mpr ⟨h.lines, hls, hindented⟩
  refine ⟨fun l hl => hlines l (List.mem_append_left _ hl), fun p hp => ?_⟩
  obtain rfl := List.mem_singleton.mp hp
  rfl

/-! ### Tokens -/

/-- Whether no comment of a draft has anything behind it, be it in the draft or in the lines that it
    is left with. -/
structure SetsOff (c : Casing) (d : Draft) : Prop where
  comments : d.EndsComments
  ends : d.EndsClean c

/-- Nothing has to be set off at the start. -/
theorem setsOff_start : start.SetsOff c := ⟨endsComments_start, endsClean_start⟩

/-- What shows something and is no such comment ends the draft, whatever the end was before. -/
theorem EndsComments.setsOff_put (h : d.EndsComments) (hp : p.lineComment? = none)
    (hshown : Text.isBlank p.source = false) : (d.put p).SetsOff c :=
  ⟨h.put hp, endsClean_put h.isLineComment (Piece.isLineComment_eq_false_iff.mpr hp)
    (isBlank_current_put hshown)⟩

/-- A space keeps comments set off. -/
theorem SetsOff.spaces (h : d.SetsOff c) {e : Draft} (he : d.Spaces e) : e.SetsOff c := by
  cases he with
  | joined => exact h
  | spaced hfresh =>
    refine ⟨h.comments.put rfl, endsClean_put h.comments.isLineComment rfl ?_⟩
    -- There is something in the line already.
    have hblank : d.current.isBlank = false := (Bool.or_eq_false_iff.mp hfresh).1
    have hsource : Line.source (d.current ++ [.pad 1]) = d.current.source ++ [' '] := by
      simp [Line.source, Piece.source, Piece.textBy, Text.spaces]
    change Text.isBlank (Line.source (d.current ++ [.pad 1])) = false
    rw [hsource, Text.isBlank_append, show Text.isBlank d.current.source = false from hblank,
      Bool.false_and]

/-- A new line keeps comments set off. -/
theorem SetsOff.startLine (h : d.SetsOff c) (s : Spacing) (levels : Int) :
    (d.startLine s levels).SetsOff c :=
  ⟨endsComments_startLine h.comments.lines s levels, h.ends.startLine s levels⟩

/-- What opens a line or goes on with it keeps comments set off. -/
theorem SetsOff.opens (h : d.SetsOff c) {e : Draft} (he : d.Opens s e) : e.SetsOff c := by
  cases he with
  | inLine he => exact h.spaces he
  | startLine levels => exact h.startLine s levels

/-- A fault that is noted makes no difference. -/
theorem SetsOff.note (h : d.SetsOff c) (fault : Option StructureError) :
    (d.note fault).SetsOff c :=
  ⟨⟨h.comments.above, h.comments.current⟩, h.ends⟩

/-- A token that is no such comment ends the draft. -/
theorem SetsOff.put_writes (h : d.SetsOff c) (hshown : Text.isBlank t.text = false)
    (hline : t.isLineComment = false) (hp : p.Writes t) : (d.put p).SetsOff c := by
  cases hp with
  | verbatim _ => exact h.comments.setsOff_put (Piece.lineComment?_verbatim hline) hshown
  | cased => exact h.comments.setsOff_put (Piece.lineComment?_cased hline) hshown

/-- A token keeps what comes behind it apart from comments. -/
theorem SetsOff.tokenStep (h : d.SetsOff c) (hshown : Text.isBlank t.text = false) {e : Draft}
    (he : d.TokenStep s t e) : e.SetsOff c := by
  cases he with
  | put hopens hp hline => exact (h.opens hopens).put_writes hshown hline hp
  | putLine levels hopens hp hline =>
    exact ((h.opens hopens).put_writes hshown hline hp).startLine s levels
  | lineComment hspaces _ =>
    -- The comment ends its line, and there is nothing in the new one.
    have hspaced := (h.spaces hspaces).comments
    refine ⟨endsComments_startLine (fun l hl => ?_) s 0, fun hflag => Bool.noConfusion hflag⟩
    rcases List.mem_append.mp hl with hl | hl
    · exact hspaced.above l hl
    · obtain rfl := List.mem_singleton.mp hl
      exact Line.endsComments_concat hspaced.current _

/-- A parenthesis that closes a block is behind no comment in its line. -/
theorem EndsComments.setsOff_closeParen (h : d.EndsComments) : (d.put .closeParen).SetsOff c :=
  h.setsOff_put rfl (by decide)

/-- The parenthesis that closes a block is behind no comment of it. -/
theorem SetsOff.blockStep (h : d.SetsOff c) {interior : List Node} {offset : Int}
    {inner e : Draft} (hinner : inner.SetsOff c)
    (he : d.BlockStep s interior offset inner e) : e.SetsOff c := by
  have hopened : ∀ e : Draft, e.SetsOff c → ((e.note inner.fault).put .openParen).EndsComments :=
    fun e he => (he.note inner.fault).comments.put rfl
  cases he with
  | empty _ => exact h.note _
  | single t _ hline =>
    have hopen := h.comments.put (p := .openParen) rfl
    exact (hopen.put (Piece.lineComment?_cased hline)).setsOff_closeParen
  | inLine l _ hfinish =>
    -- All that there is in the block is at the end of its lines.
    have hcomment := hinner.ends.finish hinner.comments.isLineComment l (by simp [hfinish])
    exact ((hopened d h).putAll fun p hp =>
      Piece.isLineComment_eq_false_iff.mp (hcomment p hp)).setsOff_closeParen
  | lines _ hspaces =>
    exact ((hopened _ (h.spaces hspaces)).insert s hinner.comments.finish).setsOff_closeParen

/-- The layout puts nothing behind a comment. -/
theorem isInvariant_setsOff (c : Casing) :
    IsInvariant (fun t => Text.isBlank t.text = false) (SetsOff c) where
  start := setsOff_start
  token hshown hd h := hd.tokenStep hshown h
  block _ hd hinner h := hd.blockStep hinner h

end Draft

/-! ### Statements and scripts -/

/-- Nothing is behind a comment in the lines of nodes, and nothing will be behind the last one. -/
theorem Node.endsComments_layOut {s : Spacing} {ns : List Node} {ls : List Line}
    (ht : ∀ t ∈ allTokens ns, Text.isBlank t.text = false) (h : layOut s ns = .ok ls) :
    (∀ l ∈ ls, l.EndsComments) ∧ ∀ l ∈ ls.getLast?, ∀ p ∈ l, p.lineComment? = none := by
  unfold layOut at h
  split at h
  · exact absurd h (by simp)
  · obtain rfl := Except.ok.inj h
    have hdraft := (Draft.isInvariant_setsOff ⟨.preserve, .preserve⟩).draft (s := s) ht
    exact ⟨hdraft.comments.finish, fun l hl p hp => Piece.isLineComment_eq_false_iff.mp
      (hdraft.ends.finish hdraft.comments.isLineComment l hl p hp)⟩

/-- The semicolon behind a statement is behind no comment. -/
theorem endsComments_terminated {ls : List Line} (h : ∀ l ∈ ls, l.EndsComments)
    (hlast : ∀ l ∈ ls.getLast?, ∀ p ∈ l, p.lineComment? = none) :
    ∀ l ∈ terminated ls, l.EndsComments := by
  intro l hl
  rcases List.mem_append.mp hl with hl | hl
  · exact h l ((List.dropLast_sublist ls).subset hl)
  · obtain rfl := List.mem_singleton.mp hl
    refine Line.endsComments_concat (fun p hp => ?_) _
    cases hls : ls.getLast? with
    | none => exact absurd hp (by simp [hls])
    | some m => exact hlast m hls p (by simpa [hls] using hp)

/-- No comment of a statement has anything behind it in its line. -/
theorem Statement.endsComments_layOut {sp : Spacing} {s : Statement} {ls : List Line}
    (hparens : ∀ t ∈ s.tokens, t.IsParenPlaced)
    (ht : ∀ t ∈ s.tokens, Text.isBlank t.text = false) (h : s.layOut sp = .ok ls) :
    ∀ l ∈ ls, l.EndsComments := by
  obtain ⟨ns, own, hns, hown, rfl⟩ := layOut_eq_ok h
  obtain ⟨hlines, hlast⟩ := Node.endsComments_layOut
    (by rwa [Node.allTokens_ofTokens hparens hns]) hown
  split
  · exact fun l hl => hlines l (Line.mem_dropBlankEnd hl)
  · split
    · exact endsComments_terminated hlines hlast
    · exact hlines

/-- No comment in the lines of statements has anything behind it, wherever the statements are
    indented. -/
theorem Style.endsComments_layOut {style : Style} {previous : Option Statement}
    {ss : List (Statement × Int)} {ls : List Line}
    (hparens : ∀ p ∈ ss, ∀ t ∈ p.1.tokens, t.IsParenPlaced)
    (ht : ∀ p ∈ ss, ∀ t ∈ p.1.tokens, Text.isBlank t.text = false)
    (h : style.layOut previous ss = .ok ls) : ∀ l ∈ ls, l.EndsComments :=
  forall_mem_layOut (Line.endsComments_of_forall (by simp))
    (fun _ _ hl => Line.endsComments_indented_append.mpr hl)
    (fun p hp _ hown => Statement.endsComments_layOut (hparens p hp) (ht p hp) hown) h

/-! ### Where comments are -/

/-- The comments that end with their lines, of pieces and tokens. -/
def Gathering.lineComments : Gathering Token where
  ofPiece p := p.lineComment?.toList
  ofToken t := (Option.guard Token.isLineComment t).toList
  ofPiece_of_isBlank p h := by
    have hline : Line.isBlank [p] = true := by simpa [Line.isBlank, Line.source] using h
    have := Line.isLineComment_of_isBlank (c := ⟨.preserve, .preserve⟩) hline p (by simp)
    rw [Piece.isLineComment_eq_false_iff.mp this]
    rfl
  ofPiece_cased _ := rfl
  ofPiece_verbatim _ _ _ := rfl
  ofToken_opening _ := rfl
  ofToken_closing _ := rfl

/-- No comment is lost with the semicolons that end statements. -/
theorem filter_isLineComment_unended (depth : Nat) (ts : List Token) :
    (unended Token.kind depth ts).filter Token.isLineComment = ts.filter Token.isLineComment := by
  induction ts generalizing depth with
  | nil => rfl
  | cons t ts ih =>
    rw [unended]
    split
    · rename_i h
      have hline : t.isLineComment = false := Token.isLineComment_of_ne_comment (by simp [h.1])
      rw [ih, List.filter_cons_of_neg (by simp [hline])]
    · rw [List.filter_cons, List.filter_cons, ih]

/-- The lines of a script have the comments of its text, in order. -/
theorem Script.lineComments_layOut {style : Style} {t : Text} {ls : List Line}
    (h : (ofText t).layOut style = .ok ls) :
    ls.flatten.filterMap Piece.lineComment? = (Token.scan t).filter Token.isLineComment := by
  have hstatement : Gathering.lineComments.ofStatement
      = fun s => s.tokens.flatMap fun u => (Option.guard Token.isLineComment u).toList := by
    funext s
    have hterminator : Gathering.lineComments.ofPiece .terminator = [] := rfl
    rw [Gathering.ofStatement, hterminator, ite_self, List.append_nil]
    rfl
  calc ls.flatten.filterMap Piece.lineComment?
      = Gathering.lineComments.ofLines ls := by
        rw [List.filterMap_eq_flatMap_toList, List.flatten_eq_flatMap, List.flatMap_assoc]
        rfl
    _ = ((ofText t).statements.flatMap (·.tokens)).flatMap
          fun u => (Option.guard Token.isLineComment u).toList := by
        rw [Gathering.script_layOut _ h, hstatement, List.flatMap_assoc]
    _ = (unended Token.kind 0 (Token.scan t)).filter Token.isLineComment := by
        rw [← List.filterMap_eq_flatMap_toList, List.filterMap_eq_filter]
        exact congrArg _ (Statement.flatMap_tokens_ofTokens _)
    _ = (Token.scan t).filter Token.isLineComment := filter_isLineComment_unended 0 _

/-! ### Formatted scripts -/

/-- Comments are written as they are. -/
theorem Piece.shown_of_lineComment? {p : Piece} {t : Token} (h : t ∈ p.lineComment?)
    (c : Casing) : p.shown c = t.text := by
  cases p with
  | verbatim u =>
    obtain ⟨rfl, -⟩ := Option.guard_eq_some_iff.mp h
    rfl
  | cased u =>
    obtain ⟨rfl, hline⟩ := Option.guard_eq_some_iff.mp h
    refine c.apply_of_comment ?_
    simp only [Token.isLineComment, Token.isComment, Bool.and_eq_true, beq_iff_eq] at hline
    exact hline.1
  | _ => simp [lineComment?] at h

namespace Style

/-- The comments that end with their lines are in the lines of a formatted script, in order. Each of
    them is the last piece of its line, where it is written without the blanks at its end, and it
    has no line break in it. -/
theorem lineComments_format {style : Style} {t r : Text} (h : style.format t = .ok r) :
    ∃ ls : List Line, (Script.ofText t).layOut style = .ok ls ∧
      r = Script.write style.casing (Text.lineBreak t) ls ∧
      ls.flatten.filterMap Piece.lineComment? = (Token.scan t).filter Token.isLineComment ∧
      ∀ l ∈ ls, ∀ (before after : Line) (p : Piece), l = before ++ p :: after →
        ∀ u ∈ p.lineComment?, after = [] ∧
          Text.trimEnd (l.shown style.casing)
            = before.shown style.casing ++ Text.trimEnd u.text ∧
          u.text.all (fun e => !endsLine e) = true := by
  obtain ⟨ls, hls, rfl⟩ := format_eq_ok h
  have hcomments := Script.lineComments_layOut hls
  refine ⟨ls, hls, rfl, hcomments, ?_⟩
  rintro l hl before after p rfl u hu
  have hends : Line.EndsComments (before ++ p :: after) := endsComments_layOut
    (fun q hq v hv => Token.isParenPlaced_of_mem_scan (Script.mem_scan_of_mem_indentations hq hv))
    (fun q hq v hv => Token.not_isBlank_of_mem_scan (Script.mem_scan_of_mem_indentations hq hv))
    hls _ hl
  obtain rfl := hends.eq_nil hu
  have hmem : u ∈ (Token.scan t).filter Token.isLineComment := by
    rw [← hcomments]
    exact List.mem_filterMap.mpr ⟨p, List.mem_flatten.mpr ⟨_, hl, by simp⟩, hu⟩
  obtain ⟨hscan, hline⟩ := List.mem_filter.mp hmem
  refine ⟨rfl, ?_, ?_⟩
  · have hshown : Line.shown style.casing [p] = u.text :=
      (List.append_nil _).trans (Piece.shown_of_lineComment? hu _)
    rw [Line.shown_append, hshown,
      Text.trimEnd_append _ (Token.not_isBlank_of_mem_scan hscan)]
  · obtain ⟨ahead, behind, hsplit⟩ := List.append_of_mem hscan
    obtain ⟨rest, -, -, hread, -⟩ := Text.scan_split hsplit
    exact hread.form.not_endsLine_of_isLineComment hline

/-- A comment in a block, in front of the parenthesis that closes the block and of a semicolon. -/
theorem lineComments_format_block :
    format ⟨⟨4, false⟩, ⟨.upper, .preserve⟩, false⟩ "call f(-- x \n); call g".toList
        = .ok "CALL f(\n    -- x\n);\nCALL g;".toList ∧
      ∃ ls : List Line, (Script.ofText "call f(-- x \n); call g".toList).layOut
          ⟨⟨4, false⟩, ⟨.upper, .preserve⟩, false⟩ = .ok ls ∧
        "CALL f(\n    -- x\n);\nCALL g;".toList
          = Script.write ⟨.upper, .preserve⟩ (Text.lineBreak "call f(-- x \n); call g".toList) ls ∧
        ls.flatten.filterMap Piece.lineComment?
          = (Token.scan "call f(-- x \n); call g".toList).filter Token.isLineComment ∧
        ∀ l ∈ ls, ∀ (before after : Line) (p : Piece), l = before ++ p :: after →
          ∀ u ∈ p.lineComment?, after = [] ∧
            Text.trimEnd (l.shown ⟨.upper, .preserve⟩)
              = before.shown ⟨.upper, .preserve⟩ ++ Text.trimEnd u.text ∧
            u.text.all (fun e => !endsLine e) = true :=
  have h : format ⟨⟨4, false⟩, ⟨.upper, .preserve⟩, false⟩ "call f(-- x \n); call g".toList
      = .ok "CALL f(\n    -- x\n);\nCALL g;".toList := by decide +kernel
  ⟨h, lineComments_format h⟩

end Style

end SqlScript
