import SqlScript.Layout.Nodes
import SqlScript.Proofs.Node.Flatten
import SqlScript.Proofs.Token.Boundary

namespace SqlScript

/-!
# Steps of a layout

What the layout of one node makes of a draft, said once: a token is put behind what there is, behind
a space or in a new line, and a block is put between its parentheses in one of two ways. What holds
of every layout is proved by these few cases.

* `Draft.TokenStep` and `Draft.tokenStep_addToken` — what comes of a draft with a token;
* `Draft.BlockStep` and `Draft.blockStep_addBlock` — what comes of a draft with a block;
* `Draft.IsInvariant` — what a property has to be kept by to hold of all drafts of nodes, and
  `Draft.IsInvariant.addNodes` — that it holds of them.
-/

/-! ### Forms of blocks -/

/-- A block takes lines of its own or stands in a line. -/
theorem blockFormOf_cases (f : Frame) (ns : List Node) :
    (∃ startsWithKeyword asList, blockFormOf f ns = .expanded startsWithKeyword asList) ∨
      blockFormOf f ns = .compact := by
  unfold blockFormOf
  simp only
  split
  · exact .inl ⟨_, _, rfl⟩
  · exact .inr rfl

/-- Only a block with nothing in it has the form of one. -/
theorem eq_nil_of_blockForm {f : Frame} {ns : List Node} (h : blockForm f ns = .empty) :
    ns = [] := by
  unfold blockForm at h
  split at h
  · rfl
  · rcases blockFormOf_cases f [.leaf ‹_›] with ⟨k, l, hf⟩ | hf <;> simp [hf] at h <;> grind
  · rcases blockFormOf_cases f ns with ⟨k, l, hf⟩ | hf <;> simp [hf] at h

/-- Only a block of one token, which does not end its line, has the form of one. -/
theorem eq_leaf_of_blockForm {f : Frame} {ns : List Node} {t : Token}
    (h : blockForm f ns = .single t) : ns = [.leaf t] ∧ t.isLineComment = false := by
  unfold blockForm at h
  split at h
  · exact absurd h (by simp)
  · rename_i u
    rcases blockFormOf_cases f [.leaf u] with ⟨k, l, hf⟩ | hf <;> simp [hf] at h <;> grind
  · rcases blockFormOf_cases f ns with ⟨k, l, hf⟩ | hf <;> simp [hf] at h

/-- What is no comment is no `--` comment. -/
theorem Token.isLineComment_of_ne_comment {t : Token} (h : t.kind ≠ .comment) :
    t.isLineComment = false := by
  simp [isLineComment, isComment, h]

/-- A `--` comment is a comment. -/
theorem Token.kind_of_isLineComment {t : Token} (h : t.isLineComment = true) :
    t.kind = .comment := by
  simp only [isLineComment, isComment, Bool.and_eq_true, beq_iff_eq] at h
  exact h.1

/-- Whether the piece is the one that a token is written as. Only marks and comments are written as
    they are. -/
inductive Piece.Writes (t : Token) : Piece → Prop where
  | verbatim : t.kind.mark?.isSome = true ∨ t.kind = .comment → Writes t (.verbatim t)
  | cased : Writes t (.cased t)

namespace Draft

variable {T : Token → Prop} {P : Draft → Prop} {d : Draft} {s : Spacing} {f : Frame}
  {position : Nat} {joined : Bool} {t : Token}

/-! ### Tokens -/

/-- What a draft can be in front of the next piece of its last line. -/
inductive Spaces (d : Draft) : Draft → Prop where
  | joined : Spaces d d
  | spaced : d.isFresh = false → Spaces d (d.put (.pad 1))

/-- A space is put where the line has something else at its end. -/
theorem spaces_space (d : Draft) : d.Spaces d.space := by
  unfold space
  split
  · exact .joined
  · rename_i hfresh
    exact .spaced (by simpa using hfresh)

/-- What separates a token is a space or nothing. -/
theorem spaces_separate (d : Draft) (joined isLabelColon : Bool) :
    d.Spaces (d.separate joined isLabelColon) := by
  unfold separate
  split
  · exact .joined
  · exact d.spaces_space

/-- What a draft can be in front of the next token. -/
inductive Opens (d : Draft) (s : Spacing) : Draft → Prop where
  | inLine {e : Draft} : d.Spaces e → Opens d s e
  | startLine (levels : Int) : Opens d s (d.startLine s levels)

/-- What a draft can be with one more token. -/
inductive TokenStep (d : Draft) (s : Spacing) (t : Token) : Draft → Prop where
  /-- The token is at the end of the last line. -/
  | put {e : Draft} {p : Piece} : d.Opens s e → p.Writes t → t.isLineComment = false →
      TokenStep d s t (e.put p)
  /-- A line is started behind the token. -/
  | putLine {e : Draft} {p : Piece} (levels : Int) : d.Opens s e → p.Writes t →
      t.isLineComment = false → TokenStep d s t ((e.put p).startLine s levels)
  /-- A line is started behind a comment that needs one. -/
  | lineComment {e : Draft} : d.Spaces e → t.isLineComment = true →
      TokenStep d s t ({ e.put (.verbatim t) with afterLineComment := true }.startLine s 0)

/-- A token that is neither a mark nor a comment is laid out as a word. -/
theorem addToken_eq_addWord (d : Draft) (s : Spacing) (f : Frame) (position : Nat) (joined : Bool)
    (hmark : t.kind.mark? = none) (hk : t.kind ≠ .comment) :
    d.addToken s f position joined t = d.addWord s f position joined t := by
  unfold addToken
  split <;> simp_all [Kind.mark?]

/-- A word takes the step of a token. -/
theorem tokenStep_addWord (d : Draft) (s : Spacing) (f : Frame) (position : Nat) (joined : Bool)
    (ht : t.isLineComment = false) : d.TokenStep s t (d.addWord s f position joined t) := by
  have hopens : ∀ levels isLabelColon breaks, d.Opens s (if breaks = true
      then d.startLine s levels else d.separate joined isLabelColon) := by
    intro levels isLabelColon breaks
    split
    · exact .startLine levels
    · exact .inLine (d.spaces_separate joined isLabelColon)
  unfold addWord
  simp only
  split
  · exact .putLine 1 (hopens _ _ _) .cased ht
  · exact .put (hopens _ _ _) .cased ht

/-- A comment takes the step of a token. -/
theorem tokenStep_addComment (d : Draft) (s : Spacing) (joined : Bool) (hk : t.kind = .comment) :
    d.TokenStep s t (d.addComment s joined t) := by
  have hspaces := d.spaces_separate joined false
  unfold addComment
  simp only
  split
  · exact .lineComment hspaces ‹_›
  · rename_i hline
    exact .put (.inLine hspaces) (.verbatim (.inr hk)) (by simpa using hline)

/-- The layout of a token is one of these steps. -/
theorem tokenStep_addToken (d : Draft) (s : Spacing) (f : Frame) (position : Nat) (joined : Bool)
    (t : Token) : d.TokenStep s t (d.addToken s f position joined t) := by
  have hline : t.kind ≠ .comment → t.isLineComment = false := Token.isLineComment_of_ne_comment
  have hmark : t.kind.mark?.isSome = true → (Piece.verbatim t).Writes t := fun h =>
    .verbatim (.inl h)
  unfold addToken
  split
  · unfold addComma
    simp only
    split
    · exact .putLine 0 (.inLine .joined) (hmark (by simp [*, Kind.mark?])) (hline (by simp [*]))
    · exact .put (.inLine .joined) (hmark (by simp [*, Kind.mark?])) (hline (by simp [*]))
  · exact .put (.inLine .joined) (hmark (by simp [*, Kind.mark?])) (hline (by simp [*]))
  · exact .put (.inLine .joined) (hmark (by simp [*, Kind.mark?])) (hline (by simp [*]))
  · exact .put (.inLine .joined) (hmark (by simp [*, Kind.mark?])) (hline (by simp [*]))
  · exact d.tokenStep_addComment s joined ‹_›
  · rename_i hcomment
    exact d.tokenStep_addWord s f position joined (hline hcomment)

/-- A token that starts no line is put at the end of the last one. -/
theorem exists_addToken_eq_put (d : Draft) (s : Spacing) (f : Frame) (position : Nat)
    (joined : Bool) (hkeyword : t.kind.isKeyword = false) (hcomma : t.kind ≠ .comma)
    (hline : t.isLineComment = false) : ∃ (e : Draft) (p : Piece), d.Spaces e ∧ p.Writes t ∧
      d.addToken s f position joined t = e.put p := by
  unfold addToken
  split
  · contradiction
  · exact ⟨d, _, .joined, .verbatim (.inl (by simp [*, Kind.mark?])), rfl⟩
  · exact ⟨d, _, .joined, .verbatim (.inl (by simp [*, Kind.mark?])), rfl⟩
  · exact ⟨d, _, .joined, .verbatim (.inl (by simp [*, Kind.mark?])), rfl⟩
  · refine ⟨_, _, d.spaces_separate joined false, .verbatim (.inr ‹_›), ?_⟩
    simp [addComment, hline]
  · refine ⟨_, _, d.spaces_separate joined (t.kind == .colon && f.isLabelColon position), .cased, ?_⟩
    simp [addWord, hkeyword]

/-! ### Blocks -/

/-- What a draft can be with one more block, whose interior was laid out as `inner`. -/
inductive BlockStep (d : Draft) (s : Spacing) (interior : List Node) (offset : Int)
    (inner : Draft) : Draft → Prop where
  | empty : interior = [] → BlockStep d s interior offset inner (d.note (some (.emptyBlock offset)))
  /-- The only token of the block is between its parentheses. -/
  | single (t : Token) : interior = [.leaf t] → t.isLineComment = false →
      BlockStep d s interior offset inner (((d.put .openParen).put (.cased t)).put .closeParen)
  /-- The only line of the block is between its parentheses. -/
  | inLine (l : Line) : interior ≠ [] → inner.finish = [l] → BlockStep d s interior offset inner
      ((((d.note inner.fault).put .openParen).putAll l).put .closeParen)
  /-- The lines of the block are below the parenthesis that opens it. -/
  | lines {e : Draft} : interior ≠ [] → d.Spaces e → BlockStep d s interior offset inner
      ((((e.note inner.fault).put .openParen).insert s inner.finish).put .closeParen)

/-- The layout of a block is one of these steps. -/
theorem blockStep_addBlock (d : Draft) (s : Spacing) (f : Frame) (interior : List Node)
    (offset : Int) (inner : Draft) :
    d.BlockStep s interior offset inner (d.addBlock s f (blockForm f interior) offset inner) := by
  cases hform : blockForm f interior with
  | empty => exact .empty (eq_nil_of_blockForm hform)
  | single t =>
    obtain ⟨hleaf, ht⟩ := eq_leaf_of_blockForm hform
    exact .single t hleaf ht
  | expanded startsWithKeyword asList =>
    have hne : interior ≠ [] := by
      rintro rfl
      exact absurd hform (by simp [blockForm])
    refine .lines hne ?_
    split
    · exact d.spaces_space
    · exact .joined
  | compact =>
    have hne : interior ≠ [] := by
      rintro rfl
      exact absurd hform (by simp [blockForm])
    simp only [addBlock]
    split
    · rename_i line hline
      split
      · rw [← hline]
        exact .lines hne .joined
      · exact .inLine line hne hline
    · exact .lines hne .joined

/-! ### Sequences -/

/-- The nodes behind others are laid out behind them. -/
theorem exists_addNodes_append (s : Spacing) (f : Frame) (position : Nat) (joined : Bool)
    (d : Draft) (ns ms : List Node) : ∃ joined', d.addNodes s f position joined (ns ++ ms)
      = (d.addNodes s f position joined ns).addNodes s f (position + ns.length) joined' ms := by
  induction ns generalizing position joined d with
  | nil => exact ⟨joined, by rw [List.nil_append, addNodes, List.length_nil, Nat.add_zero]⟩
  | cons n ns ih =>
    obtain ⟨joined', h⟩ := ih (position + 1) (f.joinsNext position n)
      (d.addNode s f position joined n)
    refine ⟨joined', ?_⟩
    rw [List.cons_append, addNodes, addNodes, h, List.length_cons, Nat.add_assoc, Nat.add_comm 1]

/-- Whether a property holds of an empty draft and is kept by the steps of nodes whose tokens have
    the property `T`. -/
structure IsInvariant (T : Token → Prop) (P : Draft → Prop) : Prop where
  start : P start
  token : ∀ {d e : Draft} {s : Spacing} {t : Token}, T t → P d → d.TokenStep s t e → P e
  block : ∀ {d inner e : Draft} {s : Spacing} {interior : List Node} {offset : Int},
    (∀ t ∈ Node.allTokens interior, T t) → P d → P inner →
    d.BlockStep s interior offset inner e → P e

mutual

/-- An invariant of the steps holds behind a node when it held in front of it. -/
theorem IsInvariant.addNode (h : IsInvariant T P) (s : Spacing) (f : Frame) (position : Nat)
    (joined : Bool) (d : Draft) (hd : P d) : (n : Node) → (∀ t ∈ n.tokens, T t) →
    P (d.addNode s f position joined n)
  | .leaf t, ht => by
    rw [Draft.addNode]
    exact h.token (ht t (by simp [Node.tokens])) hd (d.tokenStep_addToken ..)
  | .block interior span, ht => by
    have hinterior : ∀ t ∈ Node.allTokens interior, T t := fun t hmem =>
      ht t (by simp [Node.tokens, hmem])
    have hinner := h.addNodes ((blockForm f interior).spacing s) (Frame.ofNodes interior) 0 false
      .start h.start interior hinterior
    rw [Draft.addNode]
    exact h.block hinterior hd hinner (d.blockStep_addBlock ..)

/-- What every step keeps is kept by the layout of nodes. -/
theorem IsInvariant.addNodes (h : IsInvariant T P) (s : Spacing) (f : Frame) (position : Nat)
    (joined : Bool) (d : Draft) (hd : P d) : (ns : List Node) →
    (∀ t ∈ Node.allTokens ns, T t) → P (d.addNodes s f position joined ns)
  | [], _ => by rwa [Draft.addNodes]
  | n :: rest, ht => by
    rw [Draft.addNodes]
    exact h.addNodes s f _ _ _
      (h.addNode s f position joined d hd n fun t hmem => ht t (by simp [Node.allTokens, hmem]))
      rest fun t hmem => ht t (by simp [Node.allTokens, hmem])

end

/-- What holds of an empty draft and is kept by every step holds of the drafts of nodes. -/
theorem IsInvariant.draft (h : IsInvariant T P) {ns : List Node}
    (ht : ∀ t ∈ Node.allTokens ns, T t) : P (Node.draft s ns) :=
  h.addNodes s _ 0 false .start h.start ns ht

end Draft

end SqlScript
