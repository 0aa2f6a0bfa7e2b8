import SqlScript.Proofs.Layout.Kept
import SqlScript.Proofs.Layout.Sheet
import SqlScript.Proofs.Layout.Visible

namespace SqlScript

/-!
# Levels

The nodes of a text are laid out in one go, and so are those in each block that takes lines of its
own. The lines of the block are then put among those around it, with one level more in front of them
than the line that closes the block.

* `Level` and `Level.Of` — the sequences of nodes among those of a text, at all depths, each with
  the tokens in front of it and the spaces in front of its lines;
* `Level.written` — the lines of a level as they are written in the end;
* `Level.Encloses` — where the lines of a block are among all lines, and
  `Level.Of.exists_encloses` — each block that takes lines of its own has its lines there.
-/

/-- What a draft of nodes shows is what their tokens show. -/
theorem Gathering.visible_ofDraft_addNodes (c : Casing) (s : Spacing) (f : Frame) {ns : List Node}
    (hmarked : ∀ t ∈ Node.allTokens ns, t.IsMarked) (hfull : Node.AllFull ns) :
    (visible c).ofDraft (Draft.start.addNodes s f 0 false ns)
      = Text.visible ((Node.allTokens ns).flatMap c.apply) := by
  rw [draft_addNodes _ s f 0 false .start ns hmarked hfull, ofDraft_start, List.nil_append,
    Text.visible_flatMap]
  rfl

/-! ### Levels -/

/-- A sequence of nodes that is laid out in one go. -/
structure Level where
  spacing : Spacing
  nodes : List Node
  /-- The tokens in front of it, with the parentheses that are open. -/
  before : List Token
  /-- The number of spaces that its lines have in front of them in the end. -/
  margin : Nat

namespace Level

/-- What the tokens of the level have around them. -/
def frame (v : Level) : Frame := Frame.ofNodes v.nodes

/-- The rows of the level alone. -/
def rows (v : Level) : List Line := (Node.draft v.spacing v.nodes).rows

/-- The indentation of a line that starts behind some nodes of the level. -/
def indentBehind (v : Level) (front : List Node) : Nat :=
  v.margin + v.frame.indentBehind v.spacing front

/-- The level in a block that has the nodes `front` of the level in front of it. -/
def inside (v : Level) (front interior : List Node) (span : Span) : Level where
  spacing := (blockForm v.frame interior).spacing v.spacing
  nodes := interior
  before := v.before ++ Node.allTokens front ++ [Node.opening span]
  margin := v.indentBehind front + v.spacing.indentWidth

/-- The levels of nodes: the one of the nodes themselves, and the one in each block of a level. -/
inductive Of (s : Spacing) (ns : List Node) : Level → Prop
  | whole : Of s ns ⟨s, ns, [], 0⟩
  | inside {v : Level} {front interior back : List Node} {span : Span} : Of s ns v →
      v.nodes = front ++ .block interior span :: back → Of s ns (v.inside front interior span)

variable {s : Spacing} {ns : List Node} {v : Level} {front interior back : List Node} {span : Span}

/-- What holds of the nodes holds of those in a block. -/
theorem Of.allFull (h : Of s ns v) (hns : Node.AllFull ns) : Node.AllFull v.nodes := by
  induction h with
  | whole => exact hns
  | inside _ hnodes ih =>
    rw [hnodes, Node.allFull_append] at ih
    exact ih.2.1.2

/-- The tokens of a level are among those of the nodes. -/
theorem Of.mem_allTokens (h : Of s ns v) {t : Token} (ht : t ∈ Node.allTokens v.nodes) :
    t ∈ Node.allTokens ns := by
  induction h with
  | whole => exact ht
  | @inside v front interior back span _ hnodes ih =>
    have hinterior : t ∈ Node.allTokens interior := ht
    exact ih (by simp [hnodes, Node.allTokens, Node.tokens, hinterior])

/-- The rows of the level as they are written in the end. -/
def written (v : Level) (c : Casing) : List Text :=
  v.rows.map fun l => Text.spaces v.margin ++ l.shown c

/-- Whether the lines of the level are among the given ones, behind those that show what is in front
    of the level. -/
structure IsAmong (v : Level) (c : Casing) (ls above below : List Text) : Prop where
  lines : ls = above ++ (v.written c ++ below)
  before : Text.visible above.flatten = Text.visible (v.before.flatMap c.apply)

/-- Whether the lines of a block are among the given ones, between the line that its parenthesis
    opens and the one that is closed by the other. -/
structure Encloses (v : Level) (c : Casing) (front interior : List Node) (span : Span)
    (ls above : List Text) (line tail : Text) (below : List Text) : Prop where
  lines : ls = above ++ (line ++ ['(']) :: ((v.inside front interior span).written c ++
    (Text.spaces (v.indentBehind front) ++ ')' :: tail) :: below)
  before : Text.visible (above.flatten ++ line)
    = Text.visible ((v.before ++ Node.allTokens front).flatMap c.apply)

/-- Spaces in front of lines are not seen. -/
theorem visible_flatten_map (c : Casing) (width : Nat) (ls : List Line) :
    Text.visible (ls.map fun l => Text.spaces width ++ l.shown c).flatten
      = (Gathering.visible c).ofLines ls := by
  have hspaces : Text.visible (Text.spaces width) = [] := by
    rw [Text.visible_eq_nil_iff, ← List.append_nil (Text.spaces width)]
    exact Draft.isBlank_indented width
  induction ls with
  | nil => rfl
  | cons l ls ih =>
    rw [List.map_cons, List.flatten_cons, Text.visible_append, Text.visible_append, hspaces, ih,
      Gathering.ofLines_cons, Gathering.visible_ofLine]
    rfl

variable {c : Casing} {t : Text} {ls above below : List Text}

/-- An indentation adds to the margin. -/
theorem write_indented (v : Level) (width : Nat) (l : Line) :
    Text.spaces v.margin ++ (Line.indented width ++ l).shown c
      = Text.spaces (v.margin + width) ++ l.shown c := by
  have hspaces : Text.spaces v.margin ++ Text.spaces width = Text.spaces (v.margin + width) :=
    List.replicate_append_replicate
  rw [Line.shown_append, Line.shown_indented, Int.toNat_natCast, ← List.append_assoc, hspaces]

/-- The lines of a block are written as those of the level inside it. -/
theorem written_indented (v : Level) (front interior : List Node) (span : Span) :
    ((Node.draft ((blockForm v.frame interior).spacing v.spacing) interior).rows.map
        (Line.indented (v.frame.indentBehind v.spacing front + v.spacing.indentWidth : Nat) ++ ·)).map
      (fun l => Text.spaces v.margin ++ l.shown c) = (v.inside front interior span).written c := by
  rw [List.map_map, written]
  refine List.map_congr_left fun l _ => (v.write_indented _ l).trans ?_
  rw [← Nat.add_assoc]
  rfl

/-- A level with a block that takes lines of its own has the lines of the block among its own. -/
theorem Of.exists_encloses_of_isAmong (h : Of s ns v) (hns : Node.ofTokens (Token.scan t) = .ok ns)
    (hnodes : v.nodes = front ++ .block interior span :: back) (hv : v.IsAmong c ls above below)
    {startsWithKeyword asList : Bool}
    (hform : blockForm v.frame interior = .expanded startsWithKeyword asList) :
    ∃ above line tail below, v.Encloses c front interior span ls above line tail below := by
  obtain ⟨hfull, hshown⟩ := Node.full_and_shown_of_ofTokens hns
  have htokens := Node.allTokens_ofTokens (fun _ hu => Token.isParenPlaced_of_mem_scan hu) hns
  have hlevel := h.allFull hfull
  rw [hnodes, Node.allFull_append] at hlevel
  obtain ⟨hfront, ⟨hne, hinterior⟩, -⟩ := hlevel
  have hmem : ∀ u ∈ Node.allTokens v.nodes, u ∈ Node.allTokens ns := fun u hu => h.mem_allTokens hu
  rw [hnodes] at hmem
  -- The block is not empty, so something was laid out last in it.
  have htrails : (Node.draft ((blockForm v.frame interior).spacing v.spacing) interior).Trails
      (interior.getLast hne) :=
    Draft.trails_addNodes _ _ 0 false .start Draft.isDense_start interior
      (fun u hu => hshown u (hmem u (by simp [Node.allTokens, Node.tokens, hu]))) hinterior _
      (List.getLast_mem_getLast? hne)
  obtain ⟨lines, line, tail, rest, hrows, hgather⟩ :=
    Draft.exists_rows_block front back span hform htrails
  rw [← hnodes] at hrows
  have hvisible : (Gathering.visible c).ofLines (lines ++ [line])
      = Text.visible ((Node.allTokens front).flatMap c.apply) := by
    rw [hgather]
    refine Gathering.visible_ofDraft_addNodes c _ _ (fun u hu => ?_) hfront
    have hscan : u ∈ Node.allTokens ns := hmem u (by simp [hu])
    rw [htokens] at hscan
    exact Token.isMarked_of_mem_scan hscan
  refine ⟨above ++ lines.map fun l => Text.spaces v.margin ++ l.shown c,
    Text.spaces v.margin ++ line.shown c, tail.shown c,
    (rest.map fun l => Text.spaces v.margin ++ l.shown c) ++ below, ?_, ?_⟩
  · rw [hv.lines, written, show v.rows = _ from hrows, List.map_append, List.map_cons,
      List.map_append, List.map_cons, v.written_indented front interior span, v.write_indented,
      Line.shown_append, Line.shown_cons]
    simp only [List.append_assoc, List.cons_append]
    rfl
  · have hlines := visible_flatten_map c v.margin (lines ++ [line])
    rw [hvisible, List.map_append, List.map_singleton, List.flatten_append,
      List.flatten_singleton] at hlines
    rw [List.flatten_append, List.append_assoc, Text.visible_append, hlines, hv.before,
      List.flatMap_append, Text.visible_append]

/-- A level with a block in it has its lines among all lines of the nodes. -/
theorem Of.exists_isAmong (h : Of s ns v) (hns : Node.ofTokens (Token.scan t) = .ok ns)
    (hblock : v.nodes.any Node.isBlock = true) :
    ∃ above below, v.IsAmong c ((Node.draft s ns).rows.map (Line.shown c)) above below := by
  induction h with
  | whole => exact ⟨[], [], by simp [written, rows, Text.spaces], rfl⟩
  | @inside v front interior back span h hnodes ih =>
    have hparent : v.nodes.any Node.isBlock = true := by
      rw [hnodes]
      simp [Node.isBlock, Node.kind?]
    obtain ⟨above, below, hv⟩ := ih hparent
    obtain ⟨startsWithKeyword, asList, hform⟩ := exists_blockForm_of_isBlock v.frame hblock
    -- The line of the first parenthesis is among those of the level that the block is in.
    obtain ⟨lines, line, tail, rest, hlines, hbefore⟩ :=
      h.exists_encloses_of_isAmong hns hnodes hv hform
    refine ⟨lines ++ [line ++ ['(']],
      (Text.spaces (v.indentBehind front) ++ ')' :: tail) :: rest, ?_, ?_⟩
    · rw [hlines]
      simp
    · have hopen : c.apply (Node.opening span) = ['('] :=
        c.apply_of_mark? (isMarked_placed rfl _) rfl
      have hinside : (v.inside front interior span).before
          = v.before ++ Node.allTokens front ++ [Node.opening span] := rfl
      have hshown : (v.inside front interior span).before.flatMap c.apply
          = (v.before ++ Node.allTokens front).flatMap c.apply ++ ['('] := by
        rw [hinside, List.flatMap_append, List.flatMap_singleton, hopen]
      rw [List.flatten_append, List.flatten_singleton, ← List.append_assoc, Text.visible_append,
        hbefore, hshown, Text.visible_append]

/-- The lines of a block that takes lines of its own are between the line that opens it and the one
    that closes it, among the lines of the nodes. -/
theorem Of.exists_encloses (h : Of s ns v) (hns : Node.ofTokens (Token.scan t) = .ok ns)
    (hnodes : v.nodes = front ++ .block interior span :: back) {startsWithKeyword asList : Bool}
    (hform : blockForm v.frame interior = .expanded startsWithKeyword asList) (c : Casing) :
    ∃ ls, Node.layOut s ns = .ok ls ∧ ∃ above line tail below,
      v.Encloses c front interior span (ls.map (Line.shown c)) above line tail below := by
  have hblock : v.nodes.any Node.isBlock = true := by
    rw [hnodes]
    simp [Node.isBlock, Node.kind?]
  obtain ⟨above, below, hv⟩ := h.exists_isAmong (c := c) hns hblock
  obtain ⟨above, line, tail, below, hlines, hbefore⟩ :=
    h.exists_encloses_of_isAmong hns hnodes hv hform
  obtain ⟨hfull, hshown⟩ := Node.full_and_shown_of_ofTokens hns
  have hne : ns ≠ [] := by
    rintro rfl
    have hopen : Node.opening span ∈ Node.allTokens [] :=
      h.mem_allTokens (by simp [hnodes, Node.allTokens, Node.tokens])
    exact absurd hopen (by simp [Node.allTokens])
  -- A comment at the end of the nodes leaves a blank line behind the rows.
  have htrails : (Node.draft s ns).Trails (ns.getLast hne) :=
    Draft.trails_addNodes s _ 0 false .start Draft.isDense_start ns hshown hfull _
      (List.getLast_mem_getLast? hne)
  refine ⟨(Node.draft s ns).finish, ?_, above, line, tail, below ++ List.map (Line.shown c)
    (if (ns.getLast hne).isLineComment then [(Node.draft s ns).current] else []), ?_, hbefore⟩
  · rw [Node.layOut_eq, Node.firstEmptyBlock?_of_allFull ns hfull, Option.elim_none]
  · rw [htrails.finish_eq, List.map_append, hlines]
    simp

end Level

end SqlScript
