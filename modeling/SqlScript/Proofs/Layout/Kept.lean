import SqlScript.Proofs.Layout.Rows

namespace SqlScript

/-!
# Lines that stay

What was laid out stays as it is: a line that shows something is there whatever is laid out behind
it, with or without more at its end. So the lines of a block are found in those of the nodes around
it, between the one that opens the block and the one that closes it.

* `Draft.IsKept` — what a property of drafts has to be kept by to be kept by the whole layout;
* `Draft.Continues` — whether a line is in a draft, with or without more behind it;
* `Frame.indentBehind` — the indentation behind some of the nodes of a sequence;
* `Draft.exists_rows_block` — the rows of nodes with a block among them that takes lines of its own.
-/

namespace Draft

variable {P : Draft → Prop} {d e : Draft} {s : Spacing} {f : Frame} {position : Nat} {joined : Bool}

/-! ### What the layout keeps -/

/-- Whether a property is kept by all that the layout does with a draft. -/
structure IsKept (P : Draft → Prop) : Prop where
  put : ∀ {d : Draft} (p : Piece), P d → P (d.put p)
  startLine : ∀ {d : Draft} (s : Spacing) (levels : Int), P d → P (d.startLine s levels)
  insert : ∀ {d : Draft} (s : Spacing) (ls : List Line), P d → P (d.insert s ls)
  note : ∀ {d : Draft} (fault : Option StructureError), P d → P (d.note fault)
  flag : ∀ {d : Draft}, P d → P { d with afterLineComment := true }

/-- A property that the layout keeps is kept by a space. -/
theorem IsKept.spaces (h : IsKept P) (hd : P d) (he : d.Spaces e) : P e := by
  cases he with
  | joined => exact hd
  | spaced _ => exact h.put _ hd

/-- A property that the layout keeps is kept by what comes in front of a token. -/
theorem IsKept.opens (h : IsKept P) (hd : P d) (he : d.Opens s e) : P e := by
  cases he with
  | inLine he => exact h.spaces hd he
  | startLine levels => exact h.startLine s levels hd

/-- A property that the layout keeps is kept by one more token. -/
theorem IsKept.tokenStep (h : IsKept P) (hd : P d) {t : Token} (he : d.TokenStep s t e) : P e := by
  cases he with
  | put hopens _ _ => exact h.put _ (h.opens hd hopens)
  | putLine levels hopens _ _ => exact h.startLine s levels (h.put _ (h.opens hd hopens))
  | lineComment hspaces _ => exact h.startLine s 0 (h.flag (h.put _ (h.spaces hd hspaces)))

/-- A property that the layout keeps is kept by the pieces of a line. -/
theorem IsKept.putAll (h : IsKept P) (hd : P d) (l : Line) : P (d.putAll l) := by
  unfold Draft.putAll
  induction l generalizing d with
  | nil => exact hd
  | cons p l ih => exact ih (h.put p hd)

/-- A block is kept whatever was laid out of its interior. -/
theorem IsKept.blockStep (h : IsKept P) (hd : P d) {interior : List Node} {offset : Int}
    {inner : Draft} (he : d.BlockStep s interior offset inner e) : P e := by
  cases he with
  | empty _ => exact h.note _ hd
  | single t _ _ => exact h.put _ (h.put _ (h.put _ hd))
  | inLine l _ _ => exact h.put _ (h.putAll (h.put _ (h.note _ hd)) l)
  | lines _ hspaces =>
    exact h.put _ (h.insert s _ (h.put _ (h.note _ (h.spaces hd hspaces))))

/-- A property that the layout keeps is kept by one more node. -/
theorem IsKept.addNode (h : IsKept P) (hd : P d) (n : Node) :
    P (d.addNode s f position joined n) := by
  cases n with
  | leaf t =>
    rw [Draft.addNode]
    exact h.tokenStep hd (d.tokenStep_addToken ..)
  | block interior span =>
    rw [Draft.addNode]
    exact h.blockStep hd (d.blockStep_addBlock ..)

/-- What is kept step by step is kept by the layout of nodes. -/
theorem IsKept.addNodes (h : IsKept P) (hd : P d) (ns : List Node) :
    P (d.addNodes s f position joined ns) := by
  induction ns generalizing d position joined with
  | nil => rwa [Draft.addNodes]
  | cons n ns ih =>
    rw [Draft.addNodes]
    exact ih (h.addNode hd n)

/-! ### Lines that stay -/

/-- The complete lines are the first rows. -/
theorem above_prefix_rows (d : Draft) : d.above <+: d.rows := by
  unfold rows
  split
  · exact List.prefix_refl _
  · exact List.prefix_append ..

/-- Lines that are complete stay. -/
theorem isKept_above (ls : List Line) : IsKept fun d => ls <+: d.above where
  put _ h := h
  startLine _ _ h := h.trans (above_prefix_rows _)
  insert _ _ h := h.trans (List.prefix_append ..)
  note _ h := h
  flag h := h

/-- Whether the line `l` is in the draft, with `above` above it. More can have been put behind
    it. -/
inductive Continues (above : List Line) (l : Line) (d : Draft) : Prop where
  /-- It is the last line. -/
  | last (tail : Line) : d.above = above → d.current = l ++ tail → Continues above l d
  /-- It is complete. -/
  | complete (tail : Line) : above ++ [l ++ tail] <+: d.above → Continues above l d

variable {above : List Line} {l : Line}

/-- The line is one of those that show something. -/
theorem Continues.exists_prefix_rows (h : d.Continues above l) (hl : l.isBlank = false) :
    ∃ tail, above ++ [l ++ tail] <+: d.rows := by
  cases h with
  | last tail habove hcurrent =>
    have hblank : d.current.isBlank = false := by
      rw [hcurrent, Line.isBlank_append, hl, Bool.false_and]
    have hrows : d.rows = above ++ [l ++ tail] := by
      rw [rows_of_not_isBlank hblank, lines, habove, hcurrent]
    exact ⟨tail, hrows ▸ List.prefix_refl _⟩
  | complete tail habove => exact ⟨tail, habove.trans (above_prefix_rows d)⟩

/-- A line that shows something stays where it is. -/
theorem isKept_continues (hl : l.isBlank = false) : IsKept (Continues above l) where
  put p h := by
    cases h with
    | last tail habove hcurrent =>
      exact .last (tail ++ [p]) habove (by simp [Draft.put, hcurrent])
    | complete tail habove => exact .complete tail habove
  startLine s levels h := by
    obtain ⟨tail, hrows⟩ := h.exists_prefix_rows hl
    exact .complete tail hrows
  insert s ls h := by
    cases h with
    | last tail habove hcurrent =>
      refine .complete tail ?_
      rw [← habove, ← hcurrent]
      exact ⟨_, List.append_assoc ..⟩
    | complete tail habove => exact .complete tail ((isKept_above _).insert s ls habove)
  note fault h := by
    cases h with
    | last tail habove hcurrent => exact .last tail habove hcurrent
    | complete tail habove => exact .complete tail habove
  flag h := by
    cases h with
    | last tail habove hcurrent => exact .last tail habove hcurrent
    | complete tail habove => exact .complete tail habove

end Draft

/-! ### Indentations -/

/-- The indentation of a line that starts behind some nodes of a sequence. Where lists take lines of
    their own, what is behind a governing keyword is one level deeper than the keyword. -/
def Frame.indentBehind (f : Frame) (s : Spacing) (front : List Node) : Nat :=
  if s.newLineLists && !f.singleLine && (f.governing.bind (front[·]?)).any Node.isKeyword then
    s.indentWidth
  else 0

/-- Nothing is deeper at the start of a sequence. -/
theorem Frame.indentBehind_nil (f : Frame) (s : Spacing) : f.indentBehind s [] = 0 := by
  cases hg : f.governing <;> simp [indentBehind, hg]

/-- One more node makes a difference when it is the governing one. -/
theorem Frame.indentBehind_concat (f : Frame) (s : Spacing) (front : List Node) (n : Node) :
    f.indentBehind s (front ++ [n]) = f.indentBehind s front
      + if s.newLineLists && !f.singleLine && f.isGoverning front.length && n.isKeyword
        then s.indentWidth else 0 := by
  unfold indentBehind isGoverning
  cases hg : f.governing with
  | none => simp
  | some i =>
    rcases Nat.lt_trichotomy i front.length with hlt | rfl | hgt
    · simp [List.getElem?_append_left hlt, Nat.ne_of_lt hlt]
    · simp
    · have hfront : front[i]? = none := List.getElem?_eq_none (by omega)
      have hall : (front ++ [n])[i]? = none := List.getElem?_eq_none (by simp; omega)
      simp [hfront, hall, Nat.ne_of_gt hgt]

namespace Draft

variable (s : Spacing) (f : Frame) (position : Nat) (joined : Bool) (d : Draft)

variable {d} in
/-- A space leaves the indentation as it is. -/
theorem indent_spaces {e : Draft} (h : d.Spaces e) : e.indent = d.indent := by
  cases h <;> rfl

/-- A space or none leaves the indentation as it is. -/
theorem indent_ite_space (spaced : Bool) : (if spaced then d.space else d).indent = d.indent := by
  split
  · exact indent_spaces d.spaces_space
  · rfl

/-- What separates the next token leaves the indentation as it is. -/
@[simp] theorem indent_separate (isLabelColon : Bool) :
    (d.separate joined isLabelColon).indent = d.indent :=
  indent_spaces (d.spaces_separate joined isLabelColon)

/-- A new line changes the indentation by some levels. -/
theorem indent_startLine (levels : Int) :
    (d.startLine s levels).indent = d.indent + levels * s.indentWidth := rfl

/-- The pieces of a line leave the indentation as it is. -/
@[simp] theorem indent_putAll (l : Line) : (d.putAll l).indent = d.indent := by
  unfold putAll
  induction l generalizing d with
  | nil => rfl
  | cons p l ih => exact ih (d.put p)

variable {d s} in
/-- A block leaves the indentation as it is. -/
theorem indent_blockStep {interior : List Node} {offset : Int} {inner e : Draft}
    (h : d.BlockStep s interior offset inner e) : e.indent = d.indent := by
  cases h with
  | empty _ => rfl
  | single t _ _ => rfl
  | inLine l _ _ => exact indent_putAll ((d.note inner.fault).put .openParen) l
  | lines _ hspaces =>
    rw [← indent_spaces hspaces]
    rfl

/-- A comma leaves the indentation as it is. -/
theorem indent_addComma (t : Token) : (d.addComma s t).indent = d.indent := by
  unfold addComma
  simp only
  split
  · simp [indent_startLine, put]
  · rfl

/-- A comment leaves the indentation as it is. -/
theorem indent_addComment (t : Token) : (d.addComment s joined t).indent = d.indent := by
  unfold addComment
  simp only
  split
  · simp [indent_startLine, put]
  · simp [put]

/-- A keyword goes back one level, and what follows it is where it was before. Behind the governing
    one it is a level deeper. -/
theorem indent_addWord (t : Token) : (d.addWord s f position joined t).indent
    = d.indent + if s.newLineLists && !f.singleLine && f.isGoverning position && t.kind.isKeyword
        then (s.indentWidth : Int) else 0 := by
  have hafter : f.isAfterGoverning position = true → f.isGoverning position = false := by
    intro h
    unfold Frame.isGoverning Frame.isAfterGoverning at *
    cases hg : f.governing with
    | none => rfl
    | some i =>
      rw [hg] at h
      have hlt : i < position := by simpa using h
      simpa using Nat.ne_of_lt hlt
  unfold addWord
  simp only
  cases hlists : s.newLineLists with
  | false =>
    rw [Bool.false_and, if_neg (by decide)]
    split <;> simp [indent_startLine, put]
  | true =>
    cases hkeyword : t.kind.isKeyword && !f.singleLine with
    | false =>
      have hno : (!f.singleLine && f.isGoverning position && t.kind.isKeyword) = false := by
        cases hk : t.kind.isKeyword <;> simp_all
      simp [hno, put]
    | true =>
      obtain ⟨hk, hs⟩ := Bool.and_eq_true _ _ |>.mp hkeyword
      -- The level that is given up in front of a keyword is taken again behind it.
      cases hbreaks : f.isAfterGoverning position with
      | true =>
        simp only [hafter hbreaks, indent_startLine, put, Bool.true_and, Bool.and_false,
          Bool.false_and, Bool.or_false, if_true]
        simp only [Bool.false_eq_true, if_false]
        omega
      | false =>
        simp only [hk, hs, Bool.true_and, Bool.false_or, Bool.and_true, Bool.and_false,
          Bool.false_eq_true, if_false]
        split <;> simp [indent_startLine, put]

/-- A node leaves it as it is, unless it is the governing keyword of a list. -/
theorem indent_addNode (n : Node) : (d.addNode s f position joined n).indent
    = d.indent + if s.newLineLists && !f.singleLine && f.isGoverning position && n.isKeyword
        then (s.indentWidth : Int) else 0 := by
  cases n with
  | block interior span =>
    rw [addNode, indent_blockStep (d.blockStep_addBlock ..)]
    simp [Node.isKeyword, Node.kind?]
  | leaf t =>
    have hkeyword : (Node.leaf t).isKeyword = t.kind.isKeyword := rfl
    -- Marks and comments leave the indentation as it is.
    have hplain : ∀ {e : Draft}, e.indent = d.indent → t.kind.isKeyword = false → e.indent
        = d.indent + if s.newLineLists && !f.singleLine && f.isGoverning position
            && t.kind.isKeyword then (s.indentWidth : Int) else 0 := fun he hk => by
      rw [he, hk, Bool.and_false, if_neg (by decide), Int.add_zero]
    rw [addNode, hkeyword, addToken]
    split
    · exact hplain (d.indent_addComma s t) (by simp [*, Kind.isKeyword])
    · exact hplain rfl (by simp [*, Kind.isKeyword])
    · exact hplain rfl (by simp [*, Kind.isKeyword])
    · exact hplain rfl (by simp [*, Kind.isKeyword])
    · exact hplain (d.indent_addComment s joined t) (by simp [*, Kind.isKeyword])
    · exact d.indent_addWord s f position joined t

/-- The indentation behind nodes depends on the governing one alone. -/
theorem indent_addNodes_start (front : List Node) :
    (start.addNodes s f 0 false front).indent = f.indentBehind s front := by
  induction front using List.reverseRecOn with
  | nil =>
    rw [addNodes, Frame.indentBehind_nil]
    rfl
  | append_singleton front n ih =>
    obtain ⟨joined', happend⟩ := exists_addNodes_append s f 0 false start front [n]
    rw [happend, addNodes, addNodes, indent_addNode, ih, Frame.indentBehind_concat, Nat.zero_add]
    cases s.newLineLists && !f.singleLine && f.isGoverning front.length && n.isKeyword <;> simp

end Draft

/-! ### Blocks that take lines of their own -/

variable {s : Spacing} {f : Frame} {interior : List Node}

/-- A block with blocks in it takes lines of its own. -/
theorem exists_blockForm_of_isBlock (f : Frame) (h : interior.any Node.isBlock = true) :
    ∃ startsWithKeyword asList, blockForm f interior = .expanded startsWithKeyword asList := by
  have hform : blockForm f interior = blockFormOf f interior := by
    unfold blockForm
    split
    · contradiction
    · contradiction
    · rfl
  rw [hform, blockFormOf]
  simp only [h, Bool.or_true, Bool.true_or, if_true]
  exact ⟨_, _, rfl⟩

/-- A list takes lines of its own, unless it is a comma and nothing else. -/
theorem exists_blockForm_of_commas (h : listCommas f ≤ interior.countP Node.isComma)
    (hmany : interior.length ≠ 1) :
    ∃ startsWithKeyword, blockForm f interior = .expanded startsWithKeyword true := by
  have hpos : 0 < listCommas f := by
    unfold listCommas
    split <;> decide
  have hform : blockForm f interior = blockFormOf f interior := by
    unfold blockForm
    split
    · rw [List.countP_nil] at h
      omega
    · exact absurd rfl hmany
    · rfl
  rw [hform, blockFormOf]
  simp only [h, decide_true, Bool.or_true, if_true]
  exact ⟨_, rfl⟩

namespace Draft

variable {d inner : Draft} {n : Node}

/-- The lines above the one that a block which takes lines of its own ends with. -/
theorem Trails.above_addBlock_expanded (hinner : inner.Trails n) (startsWithKeyword asList : Bool)
    (offset : Int) :
    let opened := if startsWithKeyword then d.space else d
    (d.addBlock s f (.expanded startsWithKeyword asList) offset inner).above
      = opened.above ++ (opened.current ++ [.openParen]) ::
          inner.rows.map (Line.indented (d.indent + s.indentWidth) ++ ·) := by
  simp only [addBlock, hinner.insert_finish]
  simp only [put, note, d.indent_ite_space startsWithKeyword]

/-- Behind a block that takes lines of its own there is nothing in the last line but the parenthesis
    that closes it. -/
theorem Trails.current_addBlock_expanded (hinner : inner.Trails n)
    (startsWithKeyword asList : Bool) (offset : Int) :
    (d.addBlock s f (.expanded startsWithKeyword asList) offset inner).current
      = Line.indented d.indent ++ [.closeParen] := by
  simp only [addBlock, hinner.insert_finish]
  simp only [put, note, d.indent_ite_space startsWithKeyword]

/-- A block that takes lines of its own has its rows between the line that opens it and the one that
    closes it. In front of the block are the nodes that come before it. -/
theorem exists_rows_block (front back : List Node) (span : Span)
    {startsWithKeyword asList : Bool}
    (hform : blockForm f interior = .expanded startsWithKeyword asList)
    (hinner : (Node.draft ((blockForm f interior).spacing s) interior).Trails n) :
    ∃ (above : List Line) (line tail : Line) (below : List Line),
      (start.addNodes s f 0 false (front ++ .block interior span :: back)).rows
        = above ++ (line ++ [.openParen]) ::
          ((Node.draft ((blockForm f interior).spacing s) interior).rows.map
              (Line.indented (f.indentBehind s front + s.indentWidth : Nat) ++ ·) ++
            (Line.indented (f.indentBehind s front : Nat) ++ .closeParen :: tail) :: below) ∧
      ∀ g : Gathering Char,
        g.ofLines (above ++ [line]) = g.ofDraft (start.addNodes s f 0 false front) := by
  obtain ⟨joined, happend⟩ := exists_addNodes_append s f 0 false start front
    (.block interior span :: back)
  generalize hd : start.addNodes s f 0 false front = d at happend
  have hindent : d.indent = f.indentBehind s front := hd ▸ indent_addNodes_start s f front
  let inner := Node.draft ((blockForm f interior).spacing s) interior
  let opened := if startsWithKeyword then d.space else d
  let closed := d.addBlock s f (.expanded startsWithKeyword asList) span.start inner
  have hclosed : d.addNode s f (0 + front.length) joined (.block interior span) = closed := by
    rw [addNode]
    exact congrArg (d.addBlock s f · _ inner) hform
  have habove : closed.above = opened.above ++ (opened.current ++ [.openParen]) ::
      inner.rows.map (Line.indented (d.indent + s.indentWidth) ++ ·) :=
    hinner.above_addBlock_expanded startsWithKeyword asList span.start
  have hcurrent : closed.current = Line.indented d.indent ++ [.closeParen] :=
    hinner.current_addBlock_expanded startsWithKeyword asList span.start
  -- The line of the closing parenthesis stays, whatever is behind it.
  have hblank : closed.current.isBlank = false := by
    rw [hcurrent, Line.isBlank_indented_append]
    decide
  have hcontinues : closed.Continues closed.above closed.current :=
    .last [] rfl (List.append_nil _).symm
  have hafter : (closed.addNodes s f (0 + front.length + 1)
      (f.joinsNext (0 + front.length) (.block interior span)) back).Continues closed.above
        closed.current :=
    (isKept_continues hblank).addNodes hcontinues back
  obtain ⟨tail, below, hrows⟩ := hafter.exists_prefix_rows hblank
  refine ⟨opened.above, opened.current, tail, below, ?_, fun g => ?_⟩
  · rw [happend, addNodes, hclosed, ← hrows, habove, hcurrent]
    simp [inner, hindent]
  · show g.ofDraft (if startsWithKeyword then d.space else d) = g.ofDraft d
    split
    · exact g.ofDraft_spaces d.spaces_space
    · rfl

end Draft

end SqlScript
