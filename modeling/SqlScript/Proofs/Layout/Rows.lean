import SqlScript.Proofs.Layout.Comment
import SqlScript.Proofs.Layout.Fault
import SqlScript.Proofs.Layout.Settled

namespace SqlScript

/-!
# Rows

Lines are started before and behind keywords, behind commas and comments, and around blocks, often
several at one place, and a blank one is used again. No blank line comes of that, except for the one
that is kept behind a comment at the end.

* `Draft.rows` — the lines of a draft without a blank one at the end;
* `Draft.Trails` — what a draft is like when a node was laid out last, and `Draft.trails_addNodes` —
  a draft is like that behind every node;
* `Draft.Trails.insert_finish` — the lines that a block adds to the draft around it are its rows;
* `Node.isBlank_shown_layOut` — which of the lines of a script's nodes are blank.
-/

/-! ### Lines -/

/-- Two parts of a line are blank together when both are. -/
theorem Line.isBlank_append (l m : Line) : Line.isBlank (l ++ m) = (l.isBlank && m.isBlank) := by
  have hsource : Line.source (l ++ m) = l.source ++ m.source := List.flatMap_append
  rw [isBlank, hsource, Text.isBlank_append]
  rfl

/-- An indentation shows nothing. -/
theorem Line.isBlank_indented_append (width : Int) (l : Line) :
    Line.isBlank (indented width ++ l) = l.isBlank := by
  rw [isBlank_append, Draft.isBlank_indented, Bool.true_and]

/-- A last line that shows something is not dropped. -/
theorem Line.dropBlankLast_of_forall {ls : List Line} (h : ∀ l ∈ ls, l.isBlank = false) :
    dropBlankLast ls = ls := by
  unfold dropBlankLast
  cases hlast : ls.getLast? with
  | none => rfl
  | some l =>
    have hl : l.isBlank = false := h l (List.mem_of_getLast? hlast)
    simp [hl]

/-- A blank line at the end is dropped. -/
theorem Line.dropBlankLast_concat {ls : List Line} {l : Line} (h : l.isBlank = true) :
    dropBlankLast (ls ++ [l]) = ls := by
  simp [dropBlankLast, h]

/-- A blank line at the end is dropped, unless it is the only one. -/
theorem Line.dropBlankEnd_concat_of_isBlank {ls : List Line} (hne : ls ≠ []) {l : Line}
    (h : l.isBlank = true) : dropBlankEnd (ls ++ [l]) = dropBlankEnd ls := by
  cases ls with
  | nil => contradiction
  | cons m ls => simp [dropBlankEnd, h]

/-- Where no line is blank, none is dropped. -/
theorem Line.dropBlankEnd_of_forall {ls : List Line} (h : ∀ l ∈ ls, l.isBlank = false) :
    dropBlankEnd ls = ls := by
  rcases List.eq_nil_or_concat ls with rfl | ⟨ms, l, rfl⟩
  · rfl
  · rw [List.concat_eq_append] at h ⊢
    exact Draft.dropBlankEnd_concat (h l (by simp))

/-- Whether the node is a comment that ends with its line. -/
def Node.isLineComment : Node → Bool
  | leaf t => t.isLineComment
  | block _ _ => false

/-! ### Rows -/

namespace Draft

variable {s : Spacing} {f : Frame} {d : Draft} {position : Nat} {joined : Bool} {p : Piece}
  {t : Token} {n : Node}

/-- The lines of a draft, without the last one when that is blank. -/
def rows (d : Draft) : List Line := if d.current.isBlank then d.above else d.lines

/-- Whether no line of a draft is blank, apart from the last one. -/
def IsDense (d : Draft) : Prop := ∀ l ∈ d.above, l.isBlank = false

/-- A blank last line is no row. -/
theorem rows_of_isBlank (h : d.current.isBlank = true) : d.rows = d.above := if_pos h

/-- A last line that is not blank is a row. -/
theorem rows_of_not_isBlank (h : d.current.isBlank = false) : d.rows = d.lines := by
  rw [rows, h, if_neg (by decide)]

/-- A new line leaves what there is above it, and a blank line is not missed. -/
theorem above_startLine (s : Spacing) (levels : Int) (d : Draft) :
    (d.startLine s levels).above = d.rows := rfl

/-- A new line is no row before something is put there. -/
theorem rows_startLine (s : Spacing) (levels : Int) (d : Draft) :
    (d.startLine s levels).rows = d.rows :=
  rows_of_isBlank (isBlank_indented _)

/-- With a piece that shows something, the last line is a row. -/
theorem rows_put (hp : Text.isBlank p.source = false) :
    (d.put p).rows = d.above ++ [d.current ++ [p]] :=
  rows_of_not_isBlank (isBlank_current_put hp)

/-- There is nothing in a blank line that is left out. -/
theorem ofLines_rows {α : Type} (g : Gathering α) (d : Draft) : g.ofLines d.rows = g.ofDraft d := by
  cases hblank : d.current.isBlank with
  | true =>
    rw [rows_of_isBlank hblank, Gathering.ofDraft, lines, Gathering.ofLines_append,
      Gathering.ofLines_cons, g.ofLine_of_isBlank hblank]
    simp
  | false => rw [rows_of_not_isBlank hblank, Gathering.ofDraft]

/-- A draft without lines has no blank one. -/
theorem isDense_start : start.IsDense := by simp [IsDense, start]

/-- No row of a draft without blank lines is blank. -/
theorem IsDense.rows (h : d.IsDense) : ∀ l ∈ d.rows, l.isBlank = false := by
  intro l hl
  cases hblank : d.current.isBlank with
  | true => exact h l (by rwa [rows_of_isBlank hblank] at hl)
  | false =>
    rw [rows_of_not_isBlank hblank, lines] at hl
    rcases List.mem_append.mp hl with hl | hl
    · exact h l hl
    · rwa [List.mem_singleton.mp hl]

/-- What is put leaves the lines above as they are. -/
theorem IsDense.put (h : d.IsDense) (p : Piece) : (d.put p).IsDense := h

/-- A fault that is noted makes no blank line. -/
theorem IsDense.note (h : d.IsDense) (fault : Option StructureError) : (d.note fault).IsDense := h

/-- A space makes no blank line. -/
theorem IsDense.spaces (h : d.IsDense) {e : Draft} (he : d.Spaces e) : e.IsDense := by
  cases he <;> exact h

/-- A new line makes no blank line, as a blank one above it is used again. -/
theorem IsDense.startLine (h : d.IsDense) (s : Spacing) (levels : Int) :
    (d.startLine s levels).IsDense := h.rows

/-! ### Behind a node -/

/-- What a draft is like behind a node: no line above the last one is blank, there is a line that
    shows something, and a comment up to the end of its line has a new line behind it. -/
structure Trails (n : Node) (d : Draft) : Prop where
  dense : d.IsDense
  rows : d.rows ≠ []
  flag : d.afterLineComment = n.isLineComment
  fresh : n.isLineComment = true → d.current.isBlank = true

/-- Behind a piece that shows something, a draft trails the node that it belongs to. -/
theorem IsDense.trails_put (h : d.IsDense) (hp : Text.isBlank p.source = false)
    (hn : n.isLineComment = false) : (d.put p).Trails n := by
  refine ⟨h.put p, ?_, hn.symm, fun hc => ?_⟩
  · simp [rows_put hp]
  · rw [hn] at hc
    contradiction

/-- A draft still trails the node when a new line is started. -/
theorem Trails.startLine (h : d.Trails n) (s : Spacing) (levels : Int) :
    (d.startLine s levels).Trails n :=
  ⟨h.dense.startLine s levels, by rw [rows_startLine]; exact h.rows, h.flag,
    fun _ => isBlank_indented _⟩

/-- No line is blank in front of the next token. -/
theorem IsDense.opens (h : d.IsDense) {e : Draft} (he : d.Opens s e) : e.IsDense := by
  cases he with
  | inLine he => exact h.spaces he
  | startLine levels => exact h.startLine s levels

/-- A draft trails a token that was laid out. -/
theorem IsDense.tokenStep (h : d.IsDense) (ht : Text.isBlank t.text = false) {e : Draft}
    (he : d.TokenStep s t e) : e.Trails (.leaf t) := by
  have hput : ∀ {e : Draft} {p : Piece}, d.Opens s e → p.Writes t → t.isLineComment = false →
      (e.put p).Trails (.leaf t) := fun hopens hp hline => by
    cases hp <;> exact (h.opens hopens).trails_put ht hline
  cases he with
  | put hopens hp hline => exact hput hopens hp hline
  | putLine levels hopens hp hline => exact (hput hopens hp hline).startLine s levels
  | @lineComment e hspaces hline =>
    -- The line behind the comment is blank, and the comment is above it.
    let written : Draft := { e.put (.verbatim t) with afterLineComment := true }
    have hdense : written.IsDense := (h.spaces hspaces).put (.verbatim t)
    have hrows : written.rows ≠ [] := by
      show (e.put (.verbatim t)).rows ≠ []
      simp [rows_put (p := .verbatim t) ht]
    exact ⟨hdense.startLine s 0, by rwa [rows_startLine], hline.symm, fun _ => isBlank_indented _⟩

/-! ### Blocks -/

/-- The lines of a draft are its rows, with the blank line that a comment keeps behind it. -/
theorem Trails.finish_eq (h : d.Trails n) :
    d.finish = d.rows ++ if n.isLineComment then [d.current] else [] := by
  unfold finish
  rw [h.flag]
  cases hn : n.isLineComment with
  | true => rw [if_pos rfl, if_pos rfl, rows_of_isBlank (h.fresh hn), lines]
  | false =>
    rw [if_neg (by decide), if_neg (by decide), List.append_nil]
    cases hblank : d.current.isBlank with
    | true =>
      have hrows := rows_of_isBlank hblank
      have hne : d.above ≠ [] := hrows ▸ h.rows
      rw [lines, Line.dropBlankEnd_concat_of_isBlank hne hblank,
        Line.dropBlankEnd_of_forall h.dense, hrows]
    | false => rw [lines, dropBlankEnd_concat hblank, rows_of_not_isBlank hblank, lines]

/-- The lines that a block adds to the draft around it are its rows. -/
theorem Trails.insert_finish {inner : Draft} (h : inner.Trails n) (s : Spacing) (d : Draft) :
    d.insert s inner.finish = { d with
      above := d.above ++
        d.current :: inner.rows.map (Line.indented (d.indent + s.indentWidth) ++ ·)
      current := Line.indented d.indent } := by
  have hdense := h.dense.rows
  -- The only blank line is the one that was started behind a comment, and it is dropped.
  have hkept : (if 1 < inner.finish.length then Line.dropBlankLast inner.finish else inner.finish)
      = inner.rows := by
    rw [h.finish_eq]
    cases hn : n.isLineComment with
    | true =>
      have hpos : 0 < inner.rows.length := List.length_pos_iff.mpr h.rows
      have hlength : 1 < (inner.rows ++ [inner.current]).length := by
        rw [List.length_append, List.length_singleton]
        omega
      rw [if_pos rfl, if_pos hlength, Line.dropBlankLast_concat (h.fresh hn)]
    | false =>
      have hrows : (inner.rows ++ if false = true then [inner.current] else []) = inner.rows := by
        simp
      rw [hrows, Line.dropBlankLast_of_forall hdense, ite_self]
  have hdeeper : ∀ width : Int, ∀ l ∈ inner.rows.map (Line.indented width ++ ·),
      l.isBlank = false := by
    intro width l hl
    obtain ⟨m, hm, rfl⟩ := List.mem_map.mp hl
    rw [Line.isBlank_indented_append]
    exact hdense m hm
  unfold insert
  simp only [hkept, Line.dropBlankLast_of_forall (hdeeper _)]

/-- The lines of a block have no blank one among them. -/
theorem IsDense.insert_finish {inner : Draft} (h : d.IsDense) (hd : d.current.isBlank = false)
    (hinner : inner.Trails n) (s : Spacing) : (d.insert s inner.finish).IsDense := by
  rw [hinner.insert_finish]
  intro l hl
  rcases List.mem_append.mp hl with hl | hl
  · exact h l hl
  rcases List.mem_cons.mp hl with rfl | hl
  · exact hd
  · obtain ⟨m, hm, rfl⟩ := List.mem_map.mp hl
    rw [Line.isBlank_indented_append]
    exact hinner.dense.rows m hm

/-- A draft trails a block that was laid out. -/
theorem IsDense.blockStep (h : d.IsDense) {inner e : Draft} (hinner : inner.Trails n)
    {interior : List Node} (hne : interior ≠ []) {offset : Int}
    (he : d.BlockStep s interior offset inner e) (span : Span) :
    e.Trails (.block interior span) := by
  have hclose : ∀ e : Draft, e.IsDense → (e.put .closeParen).Trails (.block interior span) :=
    fun e he => he.trails_put (by decide) rfl
  cases he with
  | empty hnil => exact absurd hnil hne
  | single t _ _ => exact hclose ((d.put .openParen).put (.cased t)) h
  | inLine l _ _ =>
    refine hclose _ ?_
    rw [IsDense, above_putAll]
    exact h
  | @lines e _ hspaces =>
    have hopened : ((e.note inner.fault).put .openParen).IsDense :=
      ((h.spaces hspaces).note inner.fault).put .openParen
    exact hclose _ (hopened.insert_finish (isBlank_current_put (by decide)) hinner s)

mutual

/-- A draft trails the node that was laid out last. -/
theorem trails_addNode (s : Spacing) (f : Frame) (position : Nat) (joined : Bool) (d : Draft)
    (h : d.IsDense) : (n : Node) → (∀ t ∈ n.tokens, Text.isBlank t.text = false) → n.IsFull →
    (d.addNode s f position joined n).Trails n
  | .leaf t, ht, _ => by
    rw [addNode]
    exact h.tokenStep (ht t (by simp [Node.tokens])) (d.tokenStep_addToken ..)
  | .block interior span, ht, hfull => by
    have hinner : ∀ n ∈ interior.getLast?, _ := trails_addNodes ((blockForm f interior).spacing s)
      (Frame.ofNodes interior) 0 false start isDense_start interior
      (fun t hmem => ht t (by simp [Node.tokens, hmem])) hfull.2
    rw [addNode]
    exact h.blockStep (hinner _ (List.getLast_mem_getLast? hfull.1)) hfull.1
      (d.blockStep_addBlock ..) span

/-- A draft trails the last one of the nodes that were laid out. -/
theorem trails_addNodes (s : Spacing) (f : Frame) (position : Nat) (joined : Bool) (d : Draft)
    (h : d.IsDense) : (ns : List Node) →
    (∀ t ∈ Node.allTokens ns, Text.isBlank t.text = false) → Node.AllFull ns →
    ∀ n ∈ ns.getLast?, (d.addNodes s f position joined ns).Trails n
  | [], _, _ => by simp
  | m :: rest, ht, hfull => by
    have hm := trails_addNode s f position joined d h m
      (fun t hmem => ht t (by simp [Node.allTokens, hmem])) hfull.1
    intro n hn
    rw [addNodes]
    cases rest with
    | nil =>
      obtain rfl : m = n := by simpa using hn
      rwa [addNodes]
    | cons k rest =>
      exact trails_addNodes s f _ _ _ hm.dense (k :: rest)
        (fun t hmem => ht t (List.mem_append_right _ hmem)) hfull.2 n (by simpa using hn)

end

end Draft

/-! ### Nodes -/

namespace Node

/-- The nodes of a text are full, and their tokens are not blank. -/
theorem full_and_shown_of_ofTokens {t : Text} {ns : List Node}
    (h : ofTokens (Token.scan t) = .ok ns) :
    AllFull ns ∧ ∀ u ∈ allTokens ns, Text.isBlank u.text = false := by
  have hparens : ∀ u ∈ Token.scan t, u.IsParenPlaced := fun u hu =>
    Token.isParenPlaced_of_mem_scan hu
  refine ⟨allFull_ofTokens hparens h, fun u hu => ?_⟩
  rw [allTokens_ofTokens hparens h] at hu
  exact Token.not_isBlank_of_mem_scan hu

/-- The nodes of a text have lines, none of which is blank but the last one, and that exactly when
    the last node is a comment up to the end of its line. -/
theorem isBlank_shown_layOut (s : Spacing) (c : Casing) {t : Text} {ns : List Node}
    (h : ofTokens (Token.scan t) = .ok ns) (hne : ns ≠ []) :
    ∃ ls : List Line, layOut s ns = .ok ls ∧ ∃ (above : List Text) (last : Text),
      ls.map (Line.shown c) = above ++ [last] ∧ (∀ l ∈ above, Text.isBlank l = false) ∧
      (Text.isBlank last = true ↔ ∃ u, ns.getLast? = some (.leaf u) ∧ u.isLineComment = true) := by
  obtain ⟨hfull, hshown⟩ := full_and_shown_of_ofTokens h
  obtain ⟨before, n, hns⟩ : ∃ before n, ns = before ++ [n] :=
    (List.eq_nil_or_concat ns).resolve_left hne |>.imp fun _ h => h.imp fun _ h => by simpa using h
  have hlast : ns.getLast? = some n := by simp [hns]
  have htrails : (draft s ns).Trails n :=
    Draft.trails_addNodes s _ 0 false .start Draft.isDense_start ns hshown hfull n hlast
  have hcomment : (∃ u, ns.getLast? = some (.leaf u) ∧ u.isLineComment = true)
      ↔ n.isLineComment = true := by
    rw [hlast]
    cases n with
    | leaf u => simp [isLineComment]
    | block interior span => simp [isLineComment]
  have hdense : ∀ l ∈ (draft s ns).rows.map (Line.shown c), Text.isBlank l = false := by
    intro l hl
    obtain ⟨m, hm, rfl⟩ := List.mem_map.mp hl
    rw [Line.isBlank_shown]
    exact htrails.dense.rows m hm
  refine ⟨(draft s ns).finish, ?_, ?_⟩
  · rw [layOut_eq, firstEmptyBlock?_of_allFull ns hfull, Option.elim_none]
  rw [htrails.finish_eq, hcomment]
  cases hn : n.isLineComment with
  | true =>
    -- The line that is kept behind the comment is blank.
    refine ⟨(draft s ns).rows.map (Line.shown c), (draft s ns).current.shown c, by simp, hdense, ?_⟩
    rw [Line.isBlank_shown, htrails.fresh hn]
  | false =>
    obtain ⟨above, last, hrows⟩ : ∃ above last, (draft s ns).rows = above ++ [last] :=
      (List.eq_nil_or_concat _).resolve_left htrails.rows |>.imp fun _ h =>
        h.imp fun _ h => by simpa using h
    rw [hrows] at hdense ⊢
    refine ⟨above.map (Line.shown c), last.shown c, by simp, fun l hl => ?_, ?_⟩
    · exact hdense l (by simp only [List.map_append, List.mem_append]; exact .inl hl)
    · simp [hdense (last.shown c) (by simp)]

/-- A call with a comment behind its arguments, which keeps a line behind it. -/
theorem isBlank_shown_layOut_call :
    let t := "call f(a, b -- x\n) -- y".toList
    ∃ ns, ofTokens (Token.scan t) = .ok ns ∧ ns ≠ [] ∧
      ∃ ls : List Line, layOut ⟨4, true⟩ ns = .ok ls ∧ ∃ (above : List Text) (last : Text),
        ls.map (Line.shown ⟨.upper, .lower⟩) = above ++ [last] ∧
        (∀ l ∈ above, Text.isBlank l = false) ∧
        (Text.isBlank last = true
          ↔ ∃ u, ns.getLast? = some (.leaf u) ∧ u.isLineComment = true) := by
  intro t
  have hsome : ((ofTokens (Token.scan t)).toOption.any fun ns => !ns.isEmpty) = true := by
    decide +kernel
  cases h : ofTokens (Token.scan t) with
  | error e => simp [h, Except.toOption] at hsome
  | ok ns =>
    have hne : ns ≠ [] := by simpa [h, Except.toOption] using hsome
    exact ⟨ns, rfl, hne, isBlank_shown_layOut ⟨4, true⟩ ⟨.upper, .lower⟩ h hne⟩

end Node

end SqlScript
