import SqlScript.Proofs.Layout.Kept
import SqlScript.Proofs.Layout.Sheet

namespace SqlScript

/-!
# Indentations within a statement

A keyword goes back one level, and what follows it is one level deeper again; a comma, a comment and
a block start lines at the level at which they stand. So the indentation is always none or one level
between the nodes of a sequence, however many keywords and blocks there are in it.

* `Frame.Deepens` — when lines are one level deeper behind some nodes of a sequence;
* `Draft.between` — what was laid out between two parts of a sequence;
* `Draft.IsBreak` — what a keyword does that starts a line, to the draft and to the final lines;
* `Draft.steady_between` — the indentation between any two nodes, and the lines of keywords.
-/

/-! ### Lines that are not dropped -/

/-- Blank lines at the end are dropped, but no line in front of one that shows something. -/
theorem Line.prefix_dropBlankEnd {before ls : List Line} {l : Line} (hl : l.isBlank = false)
    (h : before ++ [l] <+: ls) : before ++ [l] <+: dropBlankEnd ls := by
  obtain ⟨behind, rfl⟩ := h
  cases before with
  | nil => exact List.prefix_append [l] _
  | cons m before =>
    have hkept : ((before ++ [l] ++ behind).reverse.dropWhile isBlank).reverse
        = before ++ [l] ++ (behind.reverse.dropWhile isBlank).reverse := by
      have hstop : ((before ++ [l]).reverse.dropWhile isBlank) = (before ++ [l]).reverse := by
        simp [hl]
      rw [List.reverse_append, List.dropWhile_append, hstop]
      split
      · rename_i hempty
        rw [List.isEmpty_iff.mp hempty]
        simp
      · simp
    show m :: (before ++ [l]) <+: m :: ((before ++ [l] ++ behind).reverse.dropWhile isBlank).reverse
    rw [hkept]
    exact List.prefix_append (m :: (before ++ [l])) _

/-- Rows up to one that shows something are among the lines in the end. -/
theorem Draft.prefix_finish {d : Draft} {before : List Line} {l : Line} (hl : l.isBlank = false)
    (h : before ++ [l] <+: d.rows) : before ++ [l] <+: d.finish := by
  have hlines : before ++ [l] <+: d.lines := by
    refine h.trans ?_
    unfold rows
    split
    · exact List.prefix_append ..
    · exact List.prefix_refl _
  unfold finish
  split
  · exact hlines
  · exact Line.prefix_dropBlankEnd hl hlines

/-! ### Levels -/

/-- Whether lines are one level deeper behind the nodes `front` of a sequence: lists take lines of
    their own, the statement is not written in a single line, and what governs it is a keyword and
    among these nodes. -/
structure Frame.Deepens (f : Frame) (s : Spacing) (front : List Node) : Prop where
  lists : s.newLineLists = true
  lines : f.singleLine = false
  governing : ∃ i n, f.governing = some i ∧ front[i]? = some n ∧ n.isKeyword = true

namespace Frame

variable {f : Frame} {s : Spacing} {front : List Node}

/-- Whether lines are deeper, as it is decided. -/
theorem deepens_iff : f.Deepens s front
    ↔ (s.newLineLists && !f.singleLine && (f.governing.bind (front[·]?)).any Node.isKeyword)
      = true := by
  simp only [Bool.and_eq_true, Bool.not_eq_true', Option.any_eq_true, Option.bind_eq_some_iff]
  constructor
  · rintro ⟨hlists, hlines, i, n, hi, hn, hkeyword⟩
    exact ⟨⟨hlists, hlines⟩, n, ⟨i, hi, hn⟩, hkeyword⟩
  · rintro ⟨⟨hlists, hlines⟩, n, ⟨i, hi, hn⟩, hkeyword⟩
    exact ⟨hlists, hlines, i, n, hi, hn, hkeyword⟩

/-- Behind a governing keyword that deepens the lines they are one level deeper. -/
theorem Deepens.indentBehind (h : f.Deepens s front) : f.indentBehind s front = s.indentWidth :=
  if_pos (deepens_iff.mp h)

/-- Behind nodes that deepen no lines, lines are as deep as before. -/
theorem indentBehind_of_not_deepens (h : ¬f.Deepens s front) : f.indentBehind s front = 0 :=
  if_neg fun hdecided => h (deepens_iff.mpr hdecided)

/-- Lines are deeper by at most one level, and by none where lists take no lines of their own. -/
theorem indentBehind_le (f : Frame) (s : Spacing) (front : List Node) :
    f.indentBehind s front ≤ if s.newLineLists then s.indentWidth else 0 := by
  unfold Frame.indentBehind
  cases s.newLineLists <;> simp
  split <;> simp

end Frame

/-! ### Between two nodes -/

namespace Draft

variable {s : Spacing} {c : Casing} {front back rest : List Node} {t : Token}

/-- What was laid out between two parts of a sequence of nodes, of which `front` comes first. -/
def between (s : Spacing) (front back : List Node) : Draft :=
  start.addNodes s (Frame.ofNodes (front ++ back)) 0 false front

/-- The indentation between two parts depends on what governs the sequence, and on nothing else. -/
theorem indent_between (s : Spacing) (front back : List Node) :
    (between s front back).indent = (Frame.ofNodes (front ++ back)).indentBehind s front :=
  indent_addNodes_start s _ front

/-- One more node is laid out. -/
theorem exists_between_concat (s : Spacing) (front : List Node) (n : Node) (rest : List Node) :
    ∃ joined, between s (front ++ [n]) rest = (between s front (n :: rest)).addNode s
      (Frame.ofNodes (front ++ n :: rest)) front.length joined n := by
  have hsequence : front ++ [n] ++ rest = front ++ n :: rest := by simp
  unfold between
  rw [hsequence]
  obtain ⟨joined, happend⟩ :=
    exists_addNodes_append s (Frame.ofNodes (front ++ n :: rest)) 0 false start front [n]
  refine ⟨joined, ?_⟩
  rw [happend, addNodes, addNodes, Nat.zero_add]

/-- What is kept by the layout is kept when the nodes of the second part are laid out. -/
theorem IsKept.draft {P : Draft → Prop} (h : IsKept P) (hd : P (between s front back)) :
    P (Node.draft s (front ++ back)) := by
  obtain ⟨joined, happend⟩ :=
    exists_addNodes_append s (Frame.ofNodes (front ++ back)) 0 false start front back
  have hall : P ((between s front back).addNodes s (Frame.ofNodes (front ++ back))
      (0 + front.length) joined back) := h.addNodes hd back
  rwa [between, ← happend] at hall

/-- A block leaves the indentation as it is. -/
theorem indent_between_block (s : Spacing) (front interior rest : List Node) (span : Span) :
    (between s (front ++ [.block interior span]) rest).indent
      = (between s front (.block interior span :: rest)).indent := by
  obtain ⟨joined, hnext⟩ := exists_between_concat s front (.block interior span) rest
  rw [hnext, addNode, indent_blockStep (blockStep_addBlock ..)]

/-! ### Keywords -/

/-- Whether a keyword behind the nodes `front` starts a line without an indentation. -/
structure IsBreak (s : Spacing) (c : Casing) (front : List Node) (t : Token)
    (rest : List Node) : Prop where
  /-- The line is empty when the keyword is put in it, and behind the keyword it is left only where
      lists take lines of their own. -/
  opened : ∃ opened : Draft, opened.above = (between s front (.leaf t :: rest)).rows ∧
    opened.current.shown c = [] ∧ between s (front ++ [.leaf t]) rest =
      if s.newLineLists then (opened.put (.cased t)).startLine s 1 else opened.put (.cased t)
  /-- The keyword is at the start of one of the final lines, when it shows something. -/
  stays : Text.isBlank t.text = false → ∀ ls, Node.layOut s (front ++ .leaf t :: rest) = .ok ls →
    ∃ tail below, ls.map (Line.shown c)
      = (between s front (.leaf t :: rest)).rows.map (Line.shown c) ++ (c.apply t ++ tail) :: below

/-- A keyword that starts a line takes back the level that the governing one has added. -/
theorem indent_startLine_keyword {d : Draft} {f : Frame} (h : d.indent = f.indentBehind s front) :
    (d.startLine s (if s.newLineLists then -1 else 0)).indent.toNat = 0 := by
  have hle := f.indentBehind_le s front
  rw [indent_startLine, h]
  cases hlists : s.newLineLists with
  | true =>
    simp only [hlists, if_true] at hle ⊢
    omega
  | false =>
    simp only [hlists, Bool.false_eq_true, if_false] at hle ⊢
    omega

/-- A keyword behind the governing node starts a line, unless the statement is written in a single
    line. -/
theorem addNode_keyword {f : Frame} {position : Nat} {joined : Bool} {d : Draft}
    (hkeyword : t.kind.isKeyword = true) (hline : f.singleLine = false)
    (hafter : f.isAfterGoverning position = true) :
    d.addNode s f position joined (.leaf t) =
      let written := (d.startLine s (if s.newLineLists then -1 else 0)).put (.cased t)
      if s.newLineLists then written.startLine s 1 else written := by
  have hword : d.addToken s f position joined t = d.addWord s f position joined t :=
    d.addToken_eq_addWord s f position joined
      (by cases hk : t.kind <;> simp [hk, Kind.isKeyword, Kind.mark?] at hkeyword ⊢)
      fun hk => by simp [hk, Kind.isKeyword] at hkeyword
  rw [addNode, hword, addWord]
  simp [hkeyword, hline, hafter]

/-- The line that a keyword starts is empty before the keyword is put in it. -/
theorem exists_opened (s : Spacing) (hkeyword : t.kind.isKeyword = true)
    (hline : (Frame.ofNodes (front ++ .leaf t :: rest)).singleLine = false)
    (hafter : (Frame.ofNodes (front ++ .leaf t :: rest)).isAfterGoverning front.length = true) :
    ∃ opened : Draft, opened.above = (between s front (.leaf t :: rest)).rows ∧
      opened.current = [.pad 0] ∧ between s (front ++ [.leaf t]) rest =
        if s.newLineLists then (opened.put (.cased t)).startLine s 1
        else opened.put (.cased t) := by
  obtain ⟨joined, hnext⟩ := exists_between_concat s front (.leaf t) rest
  rw [addNode_keyword hkeyword hline hafter] at hnext
  have hindent := indent_startLine_keyword (indent_between s front (.leaf t :: rest))
  exact ⟨_, rfl, congrArg (fun width => [Piece.pad width]) hindent, hnext⟩

/-- A keyword behind the governing one starts a line at column 0, and the line stays. -/
theorem isBreak_of_isKeyword (hkeyword : t.kind.isKeyword = true)
    (hline : (Frame.ofNodes (front ++ .leaf t :: rest)).singleLine = false)
    (hafter : (Frame.ofNodes (front ++ .leaf t :: rest)).isAfterGoverning front.length = true) :
    IsBreak s c front t rest := by
  obtain ⟨opened, habove, hcurrent, hnext⟩ := exists_opened s hkeyword hline hafter
  refine ⟨⟨opened, habove, by rw [hcurrent]; rfl, hnext⟩, fun hshown ls hls => ?_⟩
  let line : Line := [.pad 0, .cased t]
  have hline : line.isBlank = false := by
    show Line.isBlank (Line.indented 0 ++ [.cased t]) = false
    rw [Line.isBlank_indented_append]
    show Text.isBlank (t.text ++ []) = false
    rwa [List.append_nil]
  -- The line of the keyword stays, whatever is behind it.
  have hkept : IsKept (Continues (between s front (.leaf t :: rest)).rows line) :=
    isKept_continues hline
  have hwritten : Continues (between s front (.leaf t :: rest)).rows line
      (opened.put (.cased t)) :=
    .last [] habove (congrArg (· ++ [Piece.cased t]) hcurrent)
  have hbehind : Continues (between s front (.leaf t :: rest)).rows line
      (between s (front ++ [.leaf t]) rest) := by
    rw [hnext]
    split
    · exact hkept.startLine s 1 hwritten
    · exact hwritten
  have hdraft : Continues (between s front (.leaf t :: rest)).rows line
      (Node.draft s (front ++ .leaf t :: rest)) := by
    simpa using hkept.draft hbehind
  obtain ⟨tail, hrows⟩ := hdraft.exists_prefix_rows hline
  have hstays : Line.isBlank (line ++ tail) = false := by
    rw [Line.isBlank_append, hline, Bool.false_and]
  obtain ⟨below, hfinish⟩ := prefix_finish hstays hrows
  have hlines : (Node.draft s (front ++ .leaf t :: rest)).finish = ls := by
    unfold Node.layOut at hls
    split at hls
    · exact absurd hls (by simp)
    · exact Except.ok.inj hls
  refine ⟨tail.shown c, below.map (Line.shown c), ?_⟩
  rw [← hlines, ← hfinish]
  simp [line, Line.shown, Piece.shown, Piece.textBy, Text.spaces]

/-! ### Sequences -/

/-- Between two nodes of a sequence the indentation is one level or none: one level where lists take
    lines of their own, the statement is not written in a single line, and a keyword that governs it
    was laid out already. A block leaves it as it is, and a keyword that starts a line starts it
    without any. -/
theorem steady_between (s : Spacing) (c : Casing) (front back : List Node) :
    let f := Frame.ofNodes (front ++ back)
    (f.Deepens s front → (between s front back).indent = s.indentWidth) ∧
      (¬f.Deepens s front → (between s front back).indent = 0) ∧
      (∀ interior span rest, back = .block interior span :: rest →
        (between s (front ++ [.block interior span]) rest).indent
          = (between s front back).indent) ∧
      ∀ t rest, back = .leaf t :: rest → t.kind.isKeyword = true → f.singleLine = false →
        f.isAfterGoverning front.length = true → IsBreak s c front t rest := by
  intro f
  rw [indent_between s front back]
  refine ⟨fun h => congrArg _ h.indentBehind,
    fun h => congrArg _ (Frame.indentBehind_of_not_deepens h), ?_, ?_⟩
  · rintro interior span rest rfl
    rw [indent_between_block, indent_between]
  · rintro t rest rfl hkeyword hline hafter
    exact isBreak_of_isKeyword hkeyword hline hafter

/-- Each keyword is on the level of the governing one, behind a block as well. -/
example : (Node.layOut ⟨2, true⟩ [.leaf (.placed .verb "SELECT".toList 0),
      .leaf (.placed .word "f".toList 7),
      .block [.block [.leaf (.placed .word "a".toList 10)] ⟨9, 12⟩] ⟨8, 13⟩,
      .leaf (.placed .clause "FROM".toList 14), .leaf (.placed .word "b".toList 19)]).map
        (List.map (Line.shown ⟨.preserve, .preserve⟩))
    = .ok ["SELECT".toList, "  f(".toList, "    (a)".toList, "  )".toList, "FROM".toList,
      "  b".toList] := by
  rfl

end Draft

end SqlScript
