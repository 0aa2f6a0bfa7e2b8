import SqlScript.Proofs.Layout.Fusion
import SqlScript.Proofs.Script.Faithful

namespace SqlScript

/-!
# The layout of other tokens

A mapping of tokens that changes nothing by which a script is laid out maps the lines of a script to
the lines of the tokens that it gives.

* `Node.map`, `Piece.map`, `Line.mapTokens` and `Draft.map` — nodes, pieces, lines and drafts of
  other tokens;
* `Node.ofTokens_map` — the nodes of other tokens, where there are any;
* `Draft.addNodes_map` — laying out the nodes of other tokens;
* `Style.layOut_map` — the lines of the statements of other tokens;
* `Style.layOut_congr` — statements of which a mapping that keeps all texts but for their case makes
  the same have the same lines, but for the mapping.

Where an error is met is not kept, as the places of tokens are not, so that results are compared as
options.
-/

open Token (Faithful)

variable {f : Token → Token}

/-- What is left of two steps when errors are forgotten. -/
theorem toOption_bind {ε α β : Type} (x : Except ε α) (g : α → Except ε β) :
    (x >>= g).toOption = x.toOption.bind fun a => (g a).toOption := by
  cases x <;> rfl

/-! ### Nodes -/

namespace Node

mutual

/-- The node of the tokens that the mapping gives. -/
def map (f : Token → Token) : Node → Node
  | leaf t => leaf (f t)
  | block interior _ => block (mapAll f interior) ⟨0, 0⟩

/-- The nodes of the tokens that the mapping gives. -/
def mapAll (f : Token → Token) : List Node → List Node
  | [] => []
  | n :: rest => n.map f :: mapAll f rest

end

/-- Nodes are mapped one by one. -/
theorem mapAll_eq_map (f : Token → Token) (ns : List Node) : mapAll f ns = ns.map (map f) := by
  induction ns with
  | nil => rfl
  | cons n rest ih => rw [mapAll, ih, List.map_cons]

/-- Two sequences of nodes are mapped one after the other. -/
theorem mapAll_append (f : Token → Token) (ns ms : List Node) :
    mapAll f (ns ++ ms) = mapAll f ns ++ mapAll f ms := by
  rw [mapAll_eq_map, mapAll_eq_map, mapAll_eq_map, List.map_append]

/-- A node of other tokens has the same kind. -/
theorem kind?_map (hf : Faithful f) (n : Node) : (n.map f).kind? = n.kind? := by
  cases n with
  | leaf t => exact congrArg some (hf.kind t)
  | block interior span => rfl

/-- A node of other tokens is the same verb, if it is one. -/
theorem ofKey?_map (hf : Faithful f) (n : Node) :
    Verb.ofKey? (n.map f).key = Verb.ofKey? n.key := by
  cases n with
  | leaf t => exact hf.ofKey? t
  | block interior span => rfl

end Node

namespace Nesting

/-- What was read so far, of the tokens that the mapping gives. -/
def map (f : Token → Token) (n : Nesting) : Nesting :=
  ⟨n.pending.map fun p => ⟨f p.opening, Node.mapAll f p.before⟩, Node.mapAll f n.level⟩

/-- A pair of parentheses makes a block exactly when it did before. -/
theorem enclose_map (hf : Faithful f) (opening : Token) (interior : List Node) (closing : Token) :
    enclose (f opening) (Node.mapAll f interior) (f closing)
      = Node.mapAll f (enclose opening interior closing) := by
  unfold enclose
  rw [Node.mapAll_eq_map, List.isEmpty_map, hf.span, hf.span]
  split
  · rfl
  · simp only [Node.mapAll, Node.map, Node.mapAll_eq_map]

/-- One more token nests in the same way, and is refused where it was before. -/
theorem add_map (hf : Faithful f) (n : Nesting) (t : Token) :
    ((n.map f).add (f t)).toOption = (n.add t).toOption.map (map f) := by
  unfold add
  rw [hf.kind]
  split
  · rfl
  · obtain ⟨pending, level⟩ := n
    cases pending with
    | nil => rfl
    | cons p pending =>
      have hlevel : Node.mapAll f (p.before ++ enclose p.opening level t)
          = Node.mapAll f p.before ++ enclose (f p.opening) (Node.mapAll f level) (f t) := by
        rw [Node.mapAll_append, enclose_map hf]
      exact congrArg (fun l => some (⟨_, l⟩ : Nesting)) hlevel.symm
  · have hlevel := Node.mapAll_append f n.level [.leaf t]
    exact congrArg (fun l => some (⟨_, l⟩ : Nesting)) hlevel.symm

/-- Tokens nest in the same way one after the other, and are refused where they were before. -/
theorem addAll_map (hf : Faithful f) (n : Nesting) (ts : List Token) :
    ((n.map f).addAll (ts.map f)).toOption = (n.addAll ts).toOption.map (Node.mapAll f) := by
  induction ts generalizing n with
  | nil =>
    obtain ⟨pending, level⟩ := n
    cases pending <;> rfl
  | cons t rest ih =>
    have hsteps : ∀ (m : Nesting) (u : Token) (us : List Token),
        m.addAll (u :: us) = m.add u >>= fun next => next.addAll us := fun m u us => by
      rw [addAll]
      cases m.add u <;> rfl
    rw [List.map_cons, hsteps, hsteps, toOption_bind, toOption_bind, add_map hf]
    cases (n.add t).toOption with
    | none => rfl
    | some next => exact ih next

end Nesting

/-- The nodes of other tokens. -/
theorem Node.ofTokens_map (hf : Faithful f) (ts : List Token) :
    (ofTokens (ts.map f)).toOption = (ofTokens ts).toOption.map (mapAll f) :=
  Nesting.addAll_map hf .start ts

/-- Nodes of other tokens make the same frame. -/
theorem Frame.ofNodes_map (hf : Faithful f) (ns : List Node) :
    ofNodes (Node.mapAll f ns) = ofNodes ns := by
  have hkinds : (Node.mapAll f ns).map Node.kind? = ns.map Node.kind? := by
    rw [Node.mapAll_eq_map, List.map_map]
    exact List.map_congr_left fun n _ => Node.kind?_map hf n
  have hverb : ∀ i, ((Node.mapAll f ns)[i]?).bind (fun n : Node => Verb.ofKey? n.key)
      = (ns[i]?).bind fun n : Node => Verb.ofKey? n.key := fun i => by
    rw [Node.mapAll_eq_map, List.getElem?_map]
    cases ns[i]? with
    | none => rfl
    | some n => exact Node.ofKey?_map hf n
  unfold ofNodes
  simp only [hkinds]
  congr 1
  rw [Option.bind_assoc, Option.bind_assoc]
  exact congrArg (Option.bind _) (funext hverb)

/-- What joins the next token in a frame is the same for other tokens. -/
theorem Frame.joinsNext_map (hf : Faithful f) (fr : Frame) (position : Nat) (n : Node) :
    fr.joinsNext position (n.map f) = fr.joinsNext position n := by
  rw [joinsNext, Node.kind?_map hf, joinsNext]

/-- A block with more than one token is expanded or compact as before. -/
theorem blockFormOf_map (hf : Faithful f) (fr : Frame) (ns : List Node) :
    blockFormOf fr (Node.mapAll f ns) = blockFormOf fr ns := by
  have hkeyword : ∀ n : Node, (n.map f).isKeyword = n.isKeyword := fun n => by
    rw [Node.isKeyword, Node.kind?_map hf, Node.isKeyword]
  have hblock : ∀ n : Node, (n.map f).isBlock = n.isBlock := fun n => by
    rw [Node.isBlock, Node.kind?_map hf, Node.isBlock]
  have hcomma : ∀ n : Node, (n.map f).isComma = n.isComma := fun n => by
    rw [Node.isComma, Node.kind?_map hf, Node.isComma]
  unfold blockFormOf
  rw [Node.mapAll_eq_map, List.head?_map, List.any_map, List.countP_map, Option.any_map]
  simp only [Function.comp_def, hkeyword, hblock, hcomma]

/-- The form of a block of other tokens. -/
def BlockForm.map (f : Token → Token) : BlockForm → BlockForm
  | .single t => .single (f t)
  | form => form

/-- A form has the same spacing inside of it, whatever its token is. -/
theorem BlockForm.spacing_map (form : BlockForm) (s : Spacing) :
    (form.map f).spacing s = form.spacing s := by
  cases form <;> rfl

/-- The block of other tokens has the form of the block. -/
theorem blockForm_map (hf : Faithful f) (fr : Frame) (ns : List Node) :
    blockForm fr (Node.mapAll f ns) = (blockForm fr ns).map f := by
  have hform : ∀ ms, (blockFormOf fr ms).map f = blockFormOf fr ms := fun ms => by
    rcases blockFormOf_cases fr ms with ⟨k, l, h⟩ | h <;> rw [h] <;> rfl
  match ns with
  | [] => rfl
  | [.leaf t] =>
    show (if (f t).isLineComment then blockFormOf fr (Node.mapAll f [.leaf t])
      else .single (f t)) = _
    rw [hf.isLineComment, blockFormOf_map hf, blockForm]
    split
    · exact (hform _).symm
    · rfl
  | [.block interior span] =>
    exact (blockFormOf_map hf fr [.block interior span]).trans (hform _).symm
  | .leaf t :: m :: rest => exact (blockFormOf_map hf fr (.leaf t :: m :: rest)).trans (hform _).symm
  | .block interior span :: m :: rest =>
    exact (blockFormOf_map hf fr (.block interior span :: m :: rest)).trans (hform _).symm

/-! ### Lines -/

/-- The piece of the token that the mapping gives. -/
def Piece.map (f : Token → Token) : Piece → Piece
  | verbatim t => verbatim (f t)
  | cased t => cased (f t)
  | p => p

/-- A comment that ends with its line shows its dashes. -/
theorem Token.not_isBlank_of_isLineComment {t : Token} (h : t.isLineComment = true) :
    Text.isBlank t.text = false := by
  rw [isLineComment, Bool.and_eq_true, List.isPrefixOf_iff_prefix] at h
  obtain ⟨v, hv⟩ := h.2
  rw [← hv, Text.isBlank_append, show Text.isBlank lineCommentMark = false by decide,
    Bool.false_and]

/-- A token is blank exactly when it was before, comments included. -/
theorem Token.Faithful.isBlank (hf : Faithful f) (t : Token) :
    Text.isBlank (f t).text = Text.isBlank t.text := by
  cases hl : t.isLineComment with
  | true =>
    rw [not_isBlank_of_isLineComment hl,
      not_isBlank_of_isLineComment ((hf.isLineComment t).trans hl)]
  | false => exact (hf.recased t hl).isBlank

/-- A piece of another token is blank exactly when the piece is. -/
theorem Piece.isBlank_map (hf : Faithful f) (p : Piece) :
    Text.isBlank (p.map f).source = Text.isBlank p.source := by
  cases p with
  | verbatim t => exact hf.isBlank t
  | cased t => exact hf.isBlank t
  | _ => rfl

/-- A piece that is no comment up to the end of its line shows the same text, in another case. -/
theorem Piece.recased_map (hf : Faithful f) {c : Casing} {p : Piece}
    (h : p.isLineComment c = false) : Recased p.source (p.map f).source := by
  cases p with
  | verbatim t => exact hf.recased t h
  | cased t =>
    refine hf.recased t ?_
    rw [← t.isLineComment_shownAs c]
    exact h
  | _ => exact Recased.refl _

/-- Where all texts are kept but for their case, so is that of a piece. -/
theorem Piece.recased_map_of_recased (hr : ∀ t : Token, Recased t.text (f t).text) (p : Piece) :
    Recased p.source (p.map f).source := by
  cases p with
  | verbatim t => exact hr t
  | cased t => exact hr t
  | _ => exact Recased.refl _

namespace Line

/-- The line of the tokens that the mapping gives. -/
def mapTokens (f : Token → Token) (l : Line) : Line := l.map (Piece.map f)

/-- Two parts of a line are mapped one after the other. -/
theorem mapTokens_append (l m : Line) : mapTokens f (l ++ m) = mapTokens f l ++ mapTokens f m :=
  List.map_append

/-- There are no tokens in an indentation. -/
theorem mapTokens_indented (width : Int) : mapTokens f (indented width) = indented width := rfl

/-- A line of other tokens is blank exactly when the line is. -/
theorem isBlank_mapTokens (hf : Faithful f) (l : Line) : isBlank (mapTokens f l) = isBlank l := by
  induction l with
  | nil => rfl
  | cons p l ih =>
    show Text.isBlank ((p.map f).source ++ source (mapTokens f l))
      = Text.isBlank (p.source ++ source l)
    rw [Text.isBlank_append, Text.isBlank_append, p.isBlank_map hf]
    exact congrArg _ ih

/-- Where all pieces keep their texts but for the case, so does the line. -/
theorem recased_mapTokens {l : Line} (h : ∀ p ∈ l, Recased p.source (p.map f).source) :
    Recased l.source (source (mapTokens f l)) := by
  induction l with
  | nil => exact Recased.nil
  | cons p l ih => exact (h p (by simp)).append (ih fun q hq => h q (by simp [hq]))

/-- Where all pieces show what they showed before, so does the line. -/
theorem shown_mapTokens {c : Casing} {l : Line} (h : ∀ p ∈ l, (p.map f).shown c = p.shown c) :
    shown c (mapTokens f l) = shown c l := by
  rw [shown, mapTokens, List.flatMap_map]
  exact List.flatMap_congr h

/-- A blank line is dropped at the end exactly when it was before. -/
theorem dropBlankLast_mapTokens (hf : Faithful f) (ls : List Line) :
    dropBlankLast (ls.map (mapTokens f)) = (dropBlankLast ls).map (mapTokens f) := by
  unfold dropBlankLast
  rw [List.getLast?_map, Option.any_map, ← List.map_dropLast]
  simp only [isBlank_mapTokens hf]
  split <;> rfl

/-- As many blank lines are dropped at the end as before. -/
theorem dropBlankEnd_mapTokens (hf : Faithful f) (ls : List Line) :
    dropBlankEnd (ls.map (mapTokens f)) = (dropBlankEnd ls).map (mapTokens f) := by
  cases ls with
  | nil => rfl
  | cons l rest =>
    have hblank : isBlank ∘ mapTokens f = isBlank := funext (isBlank_mapTokens hf)
    rw [List.map_cons, dropBlankEnd, dropBlankEnd, ← List.map_reverse, List.dropWhile_map, hblank,
      List.map_cons, List.map_reverse]

end Line

/-! ### Drafts -/

namespace Draft

/-- The draft of the tokens that the mapping gives. -/
def map (f : Token → Token) (d : Draft) : Draft where
  above := d.above.map (Line.mapTokens f)
  current := Line.mapTokens f d.current
  indent := d.indent
  afterLineComment := d.afterLineComment
  fault := d.fault.map fun _ => .emptyBlock 0

variable {c : Casing} {d : Draft}

/-- The lines of a draft are mapped one by one. -/
theorem lines_map (d : Draft) : (d.map f).lines = d.lines.map (Line.mapTokens f) := by
  simp [lines, map]

/-- A piece can be mapped before it is put or with the draft. -/
theorem put_map (d : Draft) (p : Piece) : (d.map f).put (p.map f) = (d.put p).map f := by
  simp [put, map, Line.mapTokens]

/-- The pieces of a line can be mapped before they are put or with the draft. -/
theorem putAll_map (d : Draft) (l : Line) :
    (d.map f).putAll (Line.mapTokens f l) = (d.putAll l).map f := by
  unfold putAll Line.mapTokens
  induction l generalizing d with
  | nil => rfl
  | cons p l ih => rw [List.map_cons, List.foldl_cons, List.foldl_cons, put_map, ih]

/-- Whether a space is put behind the draft or not is the same for other tokens. -/
def EndsAlike (f : Token → Token) (d : Draft) : Prop := (d.map f).isFresh = d.isFresh

/-- Where the line that is being written is kept but for its case, a space is put behind it or not
    as before. -/
theorem endsAlike_of_current (hf : Faithful f)
    (h : ∀ p ∈ d.current, Recased p.source (p.map f).source) : d.EndsAlike f := by
  show (Line.isBlank (Line.mapTokens f d.current) || Line.endsInSpace (Line.mapTokens f d.current))
    = _
  rw [Line.isBlank_mapTokens hf, Line.endsInSpace, (Line.recased_mapTokens h).endsInSpace]
  rfl

/-- A line with no comment up to its end is kept but for its case. -/
theorem IsClean.endsAlike (hf : Faithful f) (h : d.IsClean c) : d.EndsAlike f :=
  endsAlike_of_current hf fun p hp => Piece.recased_map hf (h.current p hp)

/-- Where all texts are kept but for their case, comments included, so are all lines. -/
theorem endsAlike_of_recased (hf : Faithful f) (hr : ∀ t : Token, Recased t.text (f t).text)
    (d : Draft) : d.EndsAlike f :=
  endsAlike_of_current hf fun p _ => p.recased_map_of_recased hr

/-- A draft of other tokens gets a space where the draft does. -/
theorem EndsAlike.space_map (h : d.EndsAlike f) : (d.map f).space = d.space.map f := by
  unfold Draft.space
  rw [show (d.map f).isFresh = d.isFresh from h]
  split
  · rfl
  · exact put_map d (.pad 1)

/-- A new line is started below the same lines. -/
theorem breakLine_map (hf : Faithful f) (d : Draft) : (d.map f).breakLine = d.breakLine.map f := by
  unfold breakLine
  rw [show (d.map f).current = Line.mapTokens f d.current from rfl, Line.isBlank_mapTokens hf]
  split <;> simp [map, Line.mapTokens_indented]

/-- A new line is started with the same indentation. -/
theorem startLine_map (hf : Faithful f) (s : Spacing) (levels : Int) (d : Draft) :
    (d.map f).startLine s levels = (d.startLine s levels).map f :=
  breakLine_map hf { d with indent := d.indent + levels * s.indentWidth }

/-- The lines of a block are inserted with the same blank ones left out. -/
theorem insert_map (hf : Faithful f) (s : Spacing) (ls : List Line) (d : Draft) :
    (d.map f).insert s (ls.map (Line.mapTokens f)) = (d.insert s ls).map f := by
  have hkept : (if 1 < ls.length then (Line.dropBlankLast ls).map (Line.mapTokens f)
      else ls.map (Line.mapTokens f))
      = (if 1 < ls.length then Line.dropBlankLast ls else ls).map (Line.mapTokens f) := by
    split <;> rfl
  have hdeeper : ∀ (width : Int) (ms : List Line),
      (ms.map (Line.mapTokens f)).map (Line.indented width ++ ·)
        = (ms.map (Line.indented width ++ ·)).map (Line.mapTokens f) := fun width ms => by
    rw [List.map_map, List.map_map]
    refine List.map_congr_left fun l _ => ?_
    simp only [Function.comp_apply, Line.mapTokens_append, Line.mapTokens_indented]
  unfold insert
  simp only [List.length_map, Line.dropBlankLast_mapTokens hf, hkept, hdeeper]
  simp [map, Line.mapTokens_indented]

/-- A fault is noted in both, with its place forgotten. -/
theorem note_map (fault : Option StructureError) (d : Draft) :
    (d.map f).note (fault.map fun _ => .emptyBlock 0) = (d.note fault).map f := by
  unfold note map
  cases d.fault <;> rfl

/-- A draft of other tokens is finished with the same blank lines left out. -/
theorem finish_map (hf : Faithful f) (d : Draft) :
    (d.map f).finish = d.finish.map (Line.mapTokens f) := by
  unfold finish
  rw [lines_map, Line.dropBlankEnd_mapTokens hf]
  show (if d.afterLineComment then _ else _) = _
  split <;> rfl

/-- The next token is separated by a space where it was before. -/
theorem EndsAlike.separate_map (h : d.EndsAlike f) (joined isLabelColon : Bool) :
    (d.map f).separate joined isLabelColon = (d.separate joined isLabelColon).map f := by
  unfold Draft.separate
  split
  · rfl
  · exact h.space_map

/-! ### Tokens and blocks -/

variable {s : Spacing} {fr : Frame} {position : Nat} {joined : Bool}

/-- A word has the same line breaks around it. -/
theorem EndsAlike.addWord_map (hf : Faithful f) (h : d.EndsAlike f) (t : Token) :
    (d.map f).addWord s fr position joined (f t) = (d.addWord s fr position joined t).map f := by
  have hput : ∀ e : Draft, (e.map f).put (.cased (f t)) = (e.put (.cased t)).map f :=
    fun e => put_map e (.cased t)
  unfold addWord
  simp only [hf.kind, startLine_map hf, h.separate_map, ← apply_ite (map f), hput]

/-- A comment has the same line break behind it. -/
theorem EndsAlike.addComment_map (hf : Faithful f) (h : d.EndsAlike f) (t : Token) :
    (d.map f).addComment s joined (f t) = (d.addComment s joined t).map f := by
  have hput : ∀ e : Draft, (e.map f).put (.verbatim (f t)) = (e.put (.verbatim t)).map f :=
    fun e => put_map e (.verbatim t)
  unfold addComment
  simp only [hf.isLineComment, h.separate_map, hput]
  split
  · exact startLine_map hf s 0 { (d.separate joined false).put (.verbatim t) with
      afterLineComment := true }
  · rfl

/-- A comma has the same line break behind it. -/
theorem addComma_map (hf : Faithful f) (d : Draft) (t : Token) :
    (d.map f).addComma s (f t) = (d.addComma s t).map f := by
  have hput : (d.map f).put (.verbatim (f t)) = (d.put (.verbatim t)).map f :=
    put_map d (.verbatim t)
  unfold addComma
  simp only [hput]
  split
  · exact startLine_map hf s 0 _
  · rfl

/-- One more token is laid out alike, whatever its kind is. -/
theorem EndsAlike.addToken_map (hf : Faithful f) (h : d.EndsAlike f) (t : Token) :
    (d.map f).addToken s fr position joined (f t) = (d.addToken s fr position joined t).map f := by
  unfold addToken
  rw [hf.kind]
  split
  · exact addComma_map hf d t
  · exact put_map d (.verbatim t)
  · exact put_map d (.verbatim t)
  · exact put_map d (.verbatim t)
  · exact h.addComment_map hf t
  · exact h.addWord_map hf t

/-- A block is laid out alike when its interior was. -/
theorem EndsAlike.addBlock_map (hf : Faithful f) (h : d.EndsAlike f) (form : BlockForm) (offset : Int)
    (inner : Draft) : (d.map f).addBlock s fr (form.map f) 0 (inner.map f)
      = (d.addBlock s fr form offset inner).map f := by
  have hopen : ∀ e : Draft, (e.map f).put .openParen = (e.put .openParen).map f :=
    fun e => put_map e .openParen
  have hclose : ∀ e : Draft, (e.map f).put .closeParen = (e.put .closeParen).map f :=
    fun e => put_map e .closeParen
  have hnote : ∀ e : Draft, (e.map f).note (inner.map f).fault = (e.note inner.fault).map f :=
    note_map inner.fault
  cases form with
  | empty => exact note_map (some (.emptyBlock offset)) d
  | single t => exact putAll_map d [.openParen, .cased t, .closeParen]
  | expanded startsWithKeyword asList =>
    simp only [BlockForm.map, addBlock, h.space_map, ← apply_ite (map f), hnote, hopen,
      finish_map hf, insert_map hf, hclose]
  | compact =>
    simp only [BlockForm.map, addBlock, hnote, hopen, finish_map hf]
    generalize inner.finish = ls
    have hinsert := insert_map hf s ls ((d.note inner.fault).put .openParen)
    rcases ls with _ | ⟨line, _ | ⟨second, ls⟩⟩
    · exact (congrArg (Draft.put · .closeParen) hinsert).trans (hclose _)
    · simp only [List.map_cons, List.map_nil] at hinsert ⊢
      split
      · rw [hinsert, hclose]
      · rw [putAll_map, hclose]
    · simp only [List.map_cons] at hinsert ⊢
      rw [hinsert, hclose]

/-! ### Sequences -/

mutual

/-- Laying out the node of other tokens. -/
theorem addNode_map (hf : Faithful f) (s : Spacing) (fr : Frame) (position : Nat) (joined : Bool)
    (d : Draft) (hd : d.IsClean c) : (n : Node) → (∀ t ∈ n.tokens, t.IsMarked) →
    (∀ t ∈ n.tokens, t.IsClosed c) → n.IsFull →
    (d.map f).addNode s fr position joined (n.map f) = (d.addNode s fr position joined n).map f
  | .leaf t, _, _, _ => by
    rw [Node.map, addNode, addNode]
    exact (hd.endsAlike hf).addToken_map hf t
  | .block interior span, hmarked, ht, hfull => by
    have hinner := addNodes_map hf ((blockForm fr interior).spacing s) (Frame.ofNodes interior) 0
      false none .start isClean_start (.start rfl) interior
      (fun t hmem => hmarked t (by simp [Node.tokens, hmem]))
      (fun t hmem => ht t (by simp [Node.tokens, hmem])) hfull.2
    rw [Node.map, addNode, addNode]
    simp only [blockForm_map hf, BlockForm.spacing_map, Frame.ofNodes_map hf]
    rw [show (start : Draft) = start.map f from rfl, hinner]
    exact (hd.endsAlike hf).addBlock_map hf (blockForm fr interior) span.start _

/-- Laying out the nodes of other tokens. -/
theorem addNodes_map (hf : Faithful f) (s : Spacing) (fr : Frame) (position : Nat) (joined : Bool)
    (prev : Option Node) (d : Draft) (hd : d.IsClean c)
    (hfollows : Follows c fr d position joined prev) :
    (ns : List Node) → (∀ t ∈ Node.allTokens ns, t.IsMarked) →
    (∀ t ∈ Node.allTokens ns, t.IsClosed c) → Node.AllFull ns →
    (d.map f).addNodes s fr position joined (Node.mapAll f ns)
      = (d.addNodes s fr position joined ns).map f
  | [], _, _, _ => by rw [Node.mapAll, addNodes, addNodes]
  | n :: rest, hmarked, ht, hfull => by
    have hn : ∀ t ∈ n.tokens, t.IsMarked := fun t hmem => hmarked t (by simp [Node.allTokens, hmem])
    have hclosed : ∀ t ∈ n.tokens, t.IsClosed c :=
      fun t hmem => ht t (by simp [Node.allTokens, hmem])
    -- The draft stays clean, so that spaces are put in the same places.
    obtain ⟨hadds, hnext⟩ := adds_addNode isSeam_bounded s fr position joined prev d hd hfollows n hn
      hclosed hfull.1
    rw [Node.mapAll, addNodes, addNodes, Frame.joinsNext_map hf,
      addNode_map hf s fr position joined d hd n hn hclosed hfull.1]
    exact addNodes_map hf s fr (position + 1) (fr.joinsNext position n) (some n) _ hadds.clean hnext
      rest (fun t hmem => hmarked t (by simp [Node.allTokens, hmem]))
      (fun t hmem => ht t (by simp [Node.allTokens, hmem])) hfull.2

end

mutual

/-- Laying out the node of other tokens, where all texts are kept but for their case. -/
theorem addNode_map_of_recased (hf : Faithful f) (hr : ∀ t : Token, Recased t.text (f t).text)
    (s : Spacing) (fr : Frame) (position : Nat) (joined : Bool) (d : Draft) : (n : Node) →
    (d.map f).addNode s fr position joined (n.map f) = (d.addNode s fr position joined n).map f
  | .leaf t => by
    rw [Node.map, addNode, addNode]
    exact (d.endsAlike_of_recased hf hr).addToken_map hf t
  | .block interior span => by
    have hinner := addNodes_map_of_recased hf hr ((blockForm fr interior).spacing s)
      (Frame.ofNodes interior) 0 false .start interior
    rw [Node.map, addNode, addNode]
    simp only [blockForm_map hf, BlockForm.spacing_map, Frame.ofNodes_map hf]
    rw [show (start : Draft) = start.map f from rfl, hinner]
    exact (d.endsAlike_of_recased hf hr).addBlock_map hf (blockForm fr interior) span.start _

/-- Laying out the nodes of other tokens, where all texts are kept but for their case. -/
theorem addNodes_map_of_recased (hf : Faithful f) (hr : ∀ t : Token, Recased t.text (f t).text)
    (s : Spacing) (fr : Frame) (position : Nat) (joined : Bool) (d : Draft) : (ns : List Node) →
    (d.map f).addNodes s fr position joined (Node.mapAll f ns)
      = (d.addNodes s fr position joined ns).map f
  | [] => by rw [Node.mapAll, addNodes, addNodes]
  | n :: rest => by
    rw [Node.mapAll, addNodes, addNodes, Frame.joinsNext_map hf,
      addNode_map_of_recased hf hr s fr position joined d n]
    exact addNodes_map_of_recased hf hr s fr (position + 1) (fr.joinsNext position n) _ rest

end

end Draft

/-- The lines of the nodes of other tokens, from the draft of these nodes. -/
theorem Node.layOut_map_of_draft (hf : Faithful f) {s : Spacing} {ns : List Node}
    (hdraft : draft s (mapAll f ns) = (draft s ns).map f) : (layOut s (mapAll f ns)).toOption
      = (layOut s ns).toOption.map (List.map (Line.mapTokens f)) := by
  have hfault : ((draft s ns).map f).fault = (draft s ns).fault.map fun _ => .emptyBlock 0 := rfl
  unfold layOut
  rw [hdraft, Draft.finish_map hf, hfault]
  cases (draft s ns).fault <;> rfl

/-- The lines of the nodes of other tokens. -/
theorem Node.layOut_map (hf : Faithful f) {c : Casing} (s : Spacing) {ns : List Node}
    (hmarked : ∀ t ∈ allTokens ns, t.IsMarked) (ht : ∀ t ∈ allTokens ns, t.IsClosed c)
    (hfull : AllFull ns) : (layOut s (mapAll f ns)).toOption
      = (layOut s ns).toOption.map (List.map (Line.mapTokens f)) := by
  refine layOut_map_of_draft hf ?_
  rw [draft, Frame.ofNodes_map hf]
  exact Draft.addNodes_map hf s _ 0 false none .start Draft.isClean_start (.start rfl) ns hmarked ht
    hfull

/-! ### Statements -/

/-- The semicolon is put at the end of the same line. -/
theorem terminated_mapTokens (ls : List Line) :
    terminated (ls.map (Line.mapTokens f)) = (terminated ls).map (Line.mapTokens f) := by
  unfold terminated
  rw [List.getLast?_map, ← List.map_dropLast, List.map_append]
  cases ls.getLast? with
  | none => rfl
  | some l =>
    show _ = _ ++ [Line.mapTokens f (l ++ [.terminator])]
    rw [Line.mapTokens_append]
    rfl

/-- The lines of the statement of other tokens, from the lines of its nodes. -/
theorem Statement.layOut_map_of_nodes (hf : Faithful f) {sp : Spacing} {s : Statement}
    (hnodes : ∀ ns, Node.ofTokens s.tokens = .ok ns → (Node.layOut sp (Node.mapAll f ns)).toOption
      = (Node.layOut sp ns).toOption.map (List.map (Line.mapTokens f))) :
    ((s.map f).layOut sp).toOption
      = (s.layOut sp).toOption.map (List.map (Line.mapTokens f)) := by
  unfold layOut
  simp only [toOption_bind]
  rw [show (s.map f).tokens = s.tokens.map f from rfl, Node.ofTokens_map hf]
  cases hns : Node.ofTokens s.tokens with
  | error e => rfl
  | ok ns =>
    have hlines := hnodes ns hns
    -- A terminator is put, or blank lines are dropped, whatever the tokens are.
    have hend : ∀ ls : List Line,
        (if s.significant.isEmpty then Line.dropBlankEnd (ls.map (Line.mapTokens f))
          else if s.isTerminated then terminated (ls.map (Line.mapTokens f))
          else ls.map (Line.mapTokens f))
        = (if s.significant.isEmpty then Line.dropBlankEnd ls
            else if s.isTerminated then terminated ls else ls).map (Line.mapTokens f) := fun ls => by
      split
      · exact Line.dropBlankEnd_mapTokens hf ls
      · split
        · exact terminated_mapTokens ls
        · rfl
    show (Node.layOut sp (Node.mapAll f ns)).toOption.bind _
      = ((Node.layOut sp ns).toOption.bind _).map _
    rw [hlines]
    cases (Node.layOut sp ns).toOption with
    | none => rfl
    | some ls =>
      simp only [s.significant_map hf.toAlike, List.isEmpty_map, s.isTerminated_map hf.toAlike]
      exact congrArg some (hend ls)

/-- The lines of the statement of other tokens. -/
theorem Statement.layOut_map (hf : Faithful f) {c : Casing} (sp : Spacing) (s : Statement)
    (hmarked : ∀ t ∈ s.tokens, t.IsMarked) (hparens : ∀ t ∈ s.tokens, t.IsParenPlaced)
    (ht : ∀ t ∈ s.tokens, t.IsClosed c) : ((s.map f).layOut sp).toOption
      = (s.layOut sp).toOption.map (List.map (Line.mapTokens f)) := by
  refine layOut_map_of_nodes hf fun ns hns => ?_
  have htokens := Node.allTokens_ofTokens hparens hns
  exact Node.layOut_map hf sp (by rwa [htokens]) (c := c) (by rwa [htokens])
    (Node.allFull_ofTokens hparens hns)

/-- The lines of the statement of other tokens, where all texts are kept but for their case. -/
theorem Statement.layOut_map_of_recased (hf : Faithful f)
    (hr : ∀ t : Token, Recased t.text (f t).text) (sp : Spacing) (s : Statement) :
    ((s.map f).layOut sp).toOption
      = (s.layOut sp).toOption.map (List.map (Line.mapTokens f)) := by
  refine layOut_map_of_nodes hf fun ns _ => Node.layOut_map_of_draft hf ?_
  rw [Node.draft, Frame.ofNodes_map hf]
  exact Draft.addNodes_map_of_recased hf hr sp _ 0 false .start ns

/-! ### Scripts -/

/-- The lines of the statements of other tokens, from the lines of each of them. -/
theorem Style.layOut_map_of_statements (hf : Faithful f) {style : Style}
    (previous : Option Statement) {ss : List (Statement × Int)}
    (hss : ∀ p ∈ ss, ((p.1.map f).layOut style.spacing).toOption
      = (p.1.layOut style.spacing).toOption.map (List.map (Line.mapTokens f))) :
    (style.layOut (previous.map (Statement.map f)) (ss.map (Prod.map (Statement.map f) id))).toOption
      = (style.layOut previous ss).toOption.map (List.map (Line.mapTokens f)) := by
  induction ss generalizing previous with
  | nil => rfl
  | cons p ss ih =>
    obtain ⟨s, indent⟩ := p
    -- Whether an empty line comes first is up to the verbs, which stay the same.
    have hgap : style.separates (previous.map (Statement.map f)) (s.map f)
        = style.separates previous s := by
      unfold separates
      rw [s.verb?_map hf.toAlike, Option.any_map]
      cases previous with
      | none => rfl
      | some q => simp [q.verb?_map hf.toAlike]
    have hown := hss (s, indent) (by simp)
    have hothers := ih (some s) fun q hq => hss q (by simp [hq])
    rw [Option.map_some] at hothers
    simp only [List.map_cons, Prod.map, id, layOut, toOption_bind, hown, hothers, hgap]
    cases (s.layOut style.spacing).toOption with
    | none => rfl
    | some own =>
      cases (style.layOut (some s) ss).toOption with
      | none => rfl
      | some others =>
        have hindented : (own.map fun l => Line.indented indent ++ l).map (Line.mapTokens f)
            = (own.map (Line.mapTokens f)).map fun l => Line.indented indent ++ l := by
          rw [List.map_map, List.map_map]
          refine List.map_congr_left fun l _ => ?_
          simp only [Function.comp_apply, Line.mapTokens_append, Line.mapTokens_indented]
        have hgap' : (if style.separates previous s then [[]] else []).map (Line.mapTokens f)
            = if style.separates previous s then [[]] else [] := by
          split <;> rfl
        refine congrArg some (Eq.symm ?_)
        show List.map _ (_ ++ _ ++ _) = _
        rw [List.map_append, List.map_append, hgap', hindented]

/-- The lines of the statements of other tokens. -/
theorem Style.layOut_map (hf : Faithful f) {c : Casing} (style : Style)
    (previous : Option Statement) (ss : List (Statement × Int))
    (hmarked : ∀ p ∈ ss, ∀ t ∈ p.1.tokens, t.IsMarked)
    (hparens : ∀ p ∈ ss, ∀ t ∈ p.1.tokens, t.IsParenPlaced)
    (ht : ∀ p ∈ ss, ∀ t ∈ p.1.tokens, t.IsClosed c) :
    (style.layOut (previous.map (Statement.map f)) (ss.map (Prod.map (Statement.map f) id))).toOption
      = (style.layOut previous ss).toOption.map (List.map (Line.mapTokens f)) :=
  layOut_map_of_statements hf previous fun p hp =>
    p.1.layOut_map hf style.spacing (hmarked p hp) (hparens p hp) (ht p hp)

/-- Statements of which the mapping makes the same have the same lines, but for the mapping. -/
theorem Style.layOut_congr (hf : Faithful f) (hr : ∀ t : Token, Recased t.text (f t).text)
    (style : Style) {ss ss' : List (Statement × Int)}
    (h : ss.map (Prod.map (Statement.map f) id) = ss'.map (Prod.map (Statement.map f) id)) :
    (style.layOut none ss).toOption.map (List.map (Line.mapTokens f))
      = (style.layOut none ss').toOption.map (List.map (Line.mapTokens f)) := by
  have hmapped : ∀ rs : List (Statement × Int),
      (style.layOut none (rs.map (Prod.map (Statement.map f) id))).toOption
        = (style.layOut none rs).toOption.map (List.map (Line.mapTokens f)) := fun rs =>
    layOut_map_of_statements hf none fun p _ => p.1.layOut_map_of_recased hf hr style.spacing
  rw [← hmapped, ← hmapped, h]

/-- The same is written of lines whose pieces are written alike. -/
theorem Script.write_mapTokens {c : Casing} {ls : List Line}
    (h : ∀ l ∈ ls, ∀ p ∈ l, (p.map f).shown c = p.shown c) (eol : Text) :
    write c eol (ls.map (Line.mapTokens f)) = write c eol ls := by
  rw [write, List.map_map]
  refine congrArg (Text.join eol) (List.map_congr_left fun l hl => ?_)
  exact congrArg Text.trimEnd (Line.shown_mapTokens (h l hl))

end SqlScript
