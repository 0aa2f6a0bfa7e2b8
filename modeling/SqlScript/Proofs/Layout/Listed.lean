import SqlScript.Proofs.Layout.Level

namespace SqlScript

/-!
# Lists

A block that is a list has its elements on lines of their own: a line is started behind the
parenthesis that opens the list, behind each comma of it, and in front of the parenthesis that
closes it. Where there is nothing else in a list that starts lines, each element is a line.

* `Node.elements` — the elements of a list, each with the comma behind it;
* `Draft.exists_rows_comma` — the line of a comma ends with it, where lists take lines of their own;
* `Draft.Holds.addNodes` — and the elements are lines, where only commas start some;
* `Level.IsListed` — what the lines of a list are like, and `Level.isListed_layOut` — those of all
  lists are like that.
-/

/-! ### Elements -/

namespace Node

/-- The elements of a list, each with the comma behind it. Behind the last comma there is an element
    only when there are nodes. -/
def elements : List Node → List (List Node)
  | [] => []
  | n :: rest =>
    if n.isComma then [n] :: elements rest
    else match elements rest with
      | [] => [[n]]
      | e :: es => (n :: e) :: es

/-- Nodes up to a comma are an element. -/
theorem elements_append_comma {front : List Node} (h : ∀ n ∈ front, n.isComma = false) {n : Node}
    (hn : n.isComma = true) (rest : List Node) :
    elements (front ++ n :: rest) = (front ++ [n]) :: elements rest := by
  induction front with
  | nil => rw [List.nil_append, elements, if_pos hn, List.nil_append]
  | cons m front ih =>
    have hm : ¬m.isComma = true := by simp [h m (by simp)]
    rw [List.cons_append, elements, if_neg hm, ih fun k hk => h k (by simp [hk])]
    rfl

/-- Nodes without a comma are an element. -/
theorem elements_of_forall {ns : List Node} (hne : ns ≠ []) (h : ∀ n ∈ ns, n.isComma = false) :
    elements ns = [ns] := by
  induction ns with
  | nil => contradiction
  | cons n ns ih =>
    have hn : ¬n.isComma = true := by simp [h n (by simp)]
    rw [elements, if_neg hn]
    cases ns with
    | nil => rfl
    | cons m ns => rw [ih (by simp) fun k hk => h k (by simp [hk])]

/-- The elements are the list. -/
theorem flatten_elements (ns : List Node) : (elements ns).flatten = ns := by
  induction ns with
  | nil => rfl
  | cons n ns ih =>
    rw [elements]
    split
    · rw [List.flatten_cons, ih, List.singleton_append]
    · split
      · rename_i hnil
        rw [hnil] at ih
        simp [← ih]
      · rename_i e es hcons
        rw [hcons] at ih
        simp [← ih]

/-- Whether the node starts no line: it is no keyword, no block and no comment up to the end of its
    line. -/
structure IsPlain (n : Node) : Prop where
  keyword : n.isKeyword = false
  block : n.isBlock = false
  comment : n.isLineComment = false

end Node

/-- Whether a line shows the nodes behind an indentation of the given width. -/
def Node.AreRow (c : Casing) (width : Nat) (ns : List Node) (row : Text) : Prop :=
  ∃ d r, row = Text.spaces width ++ d :: r ∧ Unicode.isBlank d = false ∧
    Text.visible (d :: r) = Text.visible ((Node.allTokens ns).flatMap c.apply)

/-- Another case starts with a blank only if the text does. -/
theorem Recased.not_isBlank_of_mem_head? {t u : Text} (h : Recased t u)
    (ht : ∀ d ∈ t.head?, Unicode.isBlank d = false) : ∀ d ∈ u.head?, Unicode.isBlank d = false := by
  cases h with
  | nil => exact ht
  | same c _ => exact ht
  | @other c image t u _ hne himage _ =>
    intro d hd
    obtain ⟨e, image, rfl⟩ := List.exists_cons_of_ne_nil hne
    obtain rfl : e = d := by simpa using hd
    exact himage e (by simp)

/-! ### Commas -/

namespace Draft

variable {s : Spacing} {f : Frame} {position : Nat} {joined : Bool} {d : Draft} {t : Token}

/-- The line of a comma ends with it, where lists take lines of their own. In front of it are the
    nodes that come before it. -/
theorem exists_rows_comma (hlists : s.newLineLists = true) (ht : t.kind = .comma)
    (hshown : Text.isBlank t.text = false) (front back : List Node) :
    ∃ (above : List Line) (line : Line) (below : List Line),
      (start.addNodes s f 0 false (front ++ .leaf t :: back)).rows
        = above ++ (line ++ [.verbatim t]) :: below ∧
      ∀ g : Gathering Char,
        g.ofLines (above ++ [line]) = g.ofDraft (start.addNodes s f 0 false front) := by
  obtain ⟨joined, happend⟩ := exists_addNodes_append s f 0 false start front (.leaf t :: back)
  generalize start.addNodes s f 0 false front = d at happend
  have hcomma : d.addNode s f (0 + front.length) joined (.leaf t)
      = (d.put (.verbatim t)).startLine s 0 := by
    rw [addNode, addToken]
    simp only [ht, addComma, hlists, if_true]
  have habove : ((d.put (.verbatim t)).startLine s 0).above
      = d.above ++ [d.current ++ [.verbatim t]] := by
    rw [above_startLine, rows_put (p := .verbatim t) hshown]
  -- What is above the line that was started behind the comma stays there.
  have hstays : d.above ++ [d.current ++ [.verbatim t]]
      <+: ((d.put (.verbatim t)).startLine s 0).above := habove ▸ List.prefix_refl _
  have hkept : d.above ++ [d.current ++ [.verbatim t]]
      <+: (((d.put (.verbatim t)).startLine s 0).addNodes s f (0 + front.length + 1)
        (f.joinsNext (0 + front.length) (.leaf t)) back).above :=
    (isKept_above _).addNodes hstays back
  obtain ⟨below, hbelow⟩ := hkept.trans (above_prefix_rows _)
  refine ⟨d.above, d.current, below, ?_, fun g => rfl⟩
  rw [happend, addNodes, hcomma, ← hbelow]
  simp

/-! ### Plain nodes -/

/-- Whether the last line of the draft shows the nodes and nothing else, and would not be
    indented. -/
structure Holds (c : Casing) (front : List Node) (d : Draft) : Prop where
  indent : d.indent = 0
  fresh : d.current.isBlank = front.isEmpty
  visible : Text.visible (d.current.shown c)
    = Text.visible ((Node.allTokens front).flatMap c.apply)
  head : ∀ e ∈ (d.current.shown c).head?, Unicode.isBlank e = false

variable {c : Casing} {front : List Node} {p : Piece}

/-- At the start no nodes are in the line. -/
theorem holds_start : start.Holds c [] := ⟨rfl, rfl, rfl, by simp [start, Line.shown]⟩

/-- No nodes are in a new line that is started without a level. -/
theorem Holds.startLine (h : d.Holds c front) (s : Spacing) : (d.startLine s 0).Holds c [] := by
  have hindent : (d.startLine s 0).indent = 0 := by
    rw [indent_startLine, h.indent, Int.zero_mul]
    rfl
  have hcurrent : (d.startLine s 0).current.shown c = [] := by
    show Line.shown c (Line.indented (d.startLine s 0).indent) = []
    rw [hindent, Line.shown_indented]
    rfl
  exact ⟨hindent, isBlank_indented _, by rw [hcurrent]; rfl, by simp [hcurrent]⟩

/-- A space shows nothing. -/
theorem Holds.spaces (h : d.Holds c front) {e : Draft} (he : d.Spaces e) : e.Holds c front := by
  cases he with
  | joined => exact h
  | spaced hfresh =>
    have hblank : d.current.isBlank = false := (Bool.or_eq_false_iff.mp hfresh).1
    have hshown : Line.shown c (d.current ++ [.pad 1]) = d.current.shown c ++ [' '] :=
      Line.shown_append ..
    refine ⟨h.indent, ?_, ?_, ?_⟩
    · show Line.isBlank (d.current ++ [.pad 1]) = front.isEmpty
      rw [Line.isBlank_append, hblank, ← h.fresh, hblank, Bool.false_and]
    · show Text.visible (Line.shown c (d.current ++ [.pad 1])) = _
      rw [hshown, Text.visible_append, h.visible]
      exact List.append_nil _
    · show ∀ e ∈ (Line.shown c (d.current ++ [.pad 1])).head?, Unicode.isBlank e = false
      -- There is something in the line already.
      have hne : d.current.shown c ≠ [] := by
        intro hnil
        rw [← Line.isBlank_shown c, hnil] at hblank
        exact absurd hblank (by decide)
      rw [hshown, List.head?_append_of_ne_nil _ hne]
      exact h.head

/-- A piece that shows a token adds it to the nodes. -/
theorem Holds.put (h : d.Holds c front) (hwrites : p.Writes t) (hmarked : t.IsMarked)
    (hblank : Text.isBlank t.text = false)
    (hhead : ∀ e ∈ t.text.head?, Unicode.isBlank e = false) :
    (d.put p).Holds c (front ++ [.leaf t]) := by
  have hp : p.source = t.text := by cases hwrites <;> rfl
  have hvisible : Text.visible (p.shown c) = Text.visible (c.apply t) :=
    (Gathering.visible c).ofPiece_writes hmarked hwrites
  have hshown : Line.shown c (d.current ++ [p]) = d.current.shown c ++ p.shown c := by
    rw [Line.shown_append, Line.shown_cons]
    exact congrArg _ (List.append_nil _)
  refine ⟨h.indent, ?_, ?_, ?_⟩
  · rw [isBlank_current_put (hp ▸ hblank)]
    simp
  · show Text.visible (Line.shown c (d.current ++ [p])) = _
    rw [hshown, Text.visible_append, h.visible, hvisible, Node.allTokens_append,
      Node.allTokens_leaf, List.flatMap_append, Text.visible_append, List.flatMap_singleton]
  · show ∀ e ∈ (Line.shown c (d.current ++ [p])).head?, Unicode.isBlank e = false
    intro e he
    rw [hshown, List.head?_append] at he
    rcases Option.or_eq_some_iff.mp he with he | ⟨-, he⟩
    · exact h.head e he
    · exact (p.recased c).not_isBlank_of_mem_head? (hp ▸ hhead) e he

/-- A piece in the last line, with a space in front or without one, leaves the lines above. -/
theorem above_put_of_spaces {e : Draft} (h : d.Spaces e) (p : Piece) :
    (e.put p).above = d.above := by
  cases h <;> rfl

/-- A token that starts no line is put at the end of the last one. -/
theorem Holds.addToken (h : d.Holds c front) (ht : (Node.leaf t).IsPlain) (hk : t.kind ≠ .comma)
    (hmarked : t.IsMarked) (hblank : Text.isBlank t.text = false)
    (hhead : ∀ e ∈ t.text.head?, Unicode.isBlank e = false) :
    (d.addToken s f position joined t).Holds c (front ++ [.leaf t]) ∧
      (d.addToken s f position joined t).above = d.above := by
  obtain ⟨e, p, hspaces, hp, hadd⟩ :=
    d.exists_addToken_eq_put s f position joined ht.keyword hk ht.comment
  rw [hadd]
  exact ⟨(h.spaces hspaces).put hp hmarked hblank hhead, above_put_of_spaces hspaces p⟩

/-- Nodes that are shown are a row. -/
theorem Holds.areRow (h : d.Holds c front) (hne : front ≠ []) :
    Node.AreRow c 0 front (d.current.shown c) := by
  have hblank : Text.isBlank (d.current.shown c) = false := by
    rw [Line.isBlank_shown, h.fresh, List.isEmpty_eq_false_iff]
    exact hne
  obtain ⟨e, r, hshown⟩ : ∃ e r, d.current.shown c = e :: r :=
    List.exists_cons_of_ne_nil fun hnil => by
      rw [hnil] at hblank
      exact absurd hblank (by decide)
  exact ⟨e, r, hshown, h.head e (by simp [hshown]), hshown ▸ h.visible⟩

/-- Where only commas start lines, the rows are the elements. -/
theorem Holds.addNodes (hlists : s.newLineLists = true) (h : d.Holds c front)
    (hfront : ∀ n ∈ front, n.isComma = false) {rest : List Node} (hrest : ∀ n ∈ rest, n.IsPlain)
    (htokens : ∀ t ∈ Node.allTokens rest, t.IsMarked ∧ Text.isBlank t.text = false ∧
      ∀ e ∈ t.text.head?, Unicode.isBlank e = false) :
    ∃ new, (d.addNodes s f position joined rest).rows = d.above ++ new ∧
      List.Forall₂ (Node.AreRow c 0) (Node.elements (front ++ rest)) (new.map (Line.shown c)) := by
  induction rest generalizing d front position joined with
  | nil =>
    rw [Draft.addNodes, List.append_nil]
    by_cases hne : front = []
    · refine ⟨[], ?_, ?_⟩
      · rw [rows_of_isBlank (by rw [h.fresh, hne]; rfl), List.append_nil]
      · rw [hne]
        exact .nil
    · refine ⟨[d.current], ?_, ?_⟩
      · rw [rows_of_not_isBlank (by rw [h.fresh, List.isEmpty_eq_false_iff]; exact hne), lines]
      · rw [Node.elements_of_forall hne hfront]
        exact .cons (h.areRow hne) .nil
  | cons n rest ih =>
    cases n with
    | block interior span =>
      have hblock := (hrest _ List.mem_cons_self).block
      simp [Node.isBlock, Node.kind?] at hblock
    | leaf t =>
      obtain ⟨hmarked, hblank, hhead⟩ := htokens t (by simp [Node.allTokens, Node.tokens])
      have hrest' : ∀ n ∈ rest, n.IsPlain := fun n hn => hrest n (List.mem_cons_of_mem _ hn)
      have htokens' := fun u hu => htokens u (List.mem_append_right _ hu)
      rw [Draft.addNodes, Draft.addNode]
      by_cases hk : t.kind = .comma
      · -- The comma ends the element, and a line.
        have hcomma : d.addToken s f position joined t = (d.put (.verbatim t)).startLine s 0 := by
          rw [Draft.addToken]
          simp only [hk, addComma, hlists, if_true]
        have hput : (d.put (.verbatim t)).Holds c (front ++ [.leaf t]) :=
          h.put (.verbatim (.inl (by rw [hk]; rfl))) hmarked hblank hhead
        obtain ⟨new, hnew, hrows⟩ := ih (hput.startLine s) (by simp) hrest' htokens'
        refine ⟨(d.current ++ [.verbatim t]) :: new, ?_, ?_⟩
        · rw [hcomma, hnew, above_startLine, rows_put (p := .verbatim t) hblank,
            List.append_assoc, List.singleton_append]
        · rw [Node.elements_append_comma hfront (by simp [Node.isComma, Node.kind?, hk])]
          exact .cons (hput.areRow (by simp)) hrows
      · obtain ⟨hadd, habove⟩ : (d.addToken s f position joined t).Holds c (front ++ [.leaf t]) ∧
            (d.addToken s f position joined t).above = d.above :=
          h.addToken (hrest _ List.mem_cons_self) hk hmarked hblank hhead
        have hfront' : ∀ n ∈ front ++ [.leaf t], n.isComma = false := by
          intro n hn
          rcases List.mem_append.mp hn with hn | hn
          · exact hfront n hn
          · rw [List.mem_singleton.mp hn]
            simp [Node.isComma, Node.kind?, hk]
        obtain ⟨new, hnew, hrows⟩ := ih hadd hfront' hrest' htokens'
        rw [List.append_assoc, List.singleton_append] at hrows
        exact ⟨new, by rw [hnew, habove], hrows⟩

end Draft

/-! ### Lists -/

namespace Level

/-- What the lines of a list are like. They are between the line that its parenthesis opens and the
    one that the other one closes; behind each comma there is a new line, and where nothing else
    starts lines, each element is one. -/
structure IsListed (v : Level) (c : Casing) (front interior : List Node) (ls above : List Text)
    (line : Text) (rows : List Text) (tail : Text) (below : List Text) : Prop where
  lines : ls = above ++ (line ++ ['(']) :: (rows ++
    (Text.spaces (v.indentBehind front) ++ ')' :: tail) :: below)
  before : Text.visible (above.flatten ++ line)
    = Text.visible ((v.before ++ Node.allTokens front).flatMap c.apply)
  shown : Text.visible rows.flatten = Text.visible ((Node.allTokens interior).flatMap c.apply)
  commas : ∀ ahead t behind, interior = ahead ++ .leaf t :: behind → t.kind = .comma →
    ∃ upto row rest, rows = upto ++ (row ++ [',']) :: rest ∧
      Text.visible (upto.flatten ++ row)
        = Text.visible ((Node.allTokens ahead).flatMap c.apply)
  elements : (∀ n ∈ interior, n.IsPlain) →
    List.Forall₂ (Node.AreRow c (v.indentBehind front + v.spacing.indentWidth))
      (Node.elements interior) rows

variable {s : Spacing} {ns : List Node} {v : Level} {front interior back : List Node} {span : Span}
  {c : Casing} {t : Text}

/-- In a level in which lists take lines of their own, the line of a comma ends with it. -/
theorem exists_written_comma (hlists : v.spacing.newLineLists = true)
    (hfull : Node.AllFull v.nodes) (htokens : ∀ u ∈ Node.allTokens v.nodes, u ∈ Token.scan t)
    {ahead behind : List Node} {u : Token} (hsplit : v.nodes = ahead ++ .leaf u :: behind)
    (hk : u.kind = .comma) :
    ∃ upto row rest, v.written c = upto ++ (row ++ [',']) :: rest ∧
      Text.visible (upto.flatten ++ row)
        = Text.visible ((Node.allTokens ahead).flatMap c.apply) := by
  have hmarked : ∀ w ∈ Node.allTokens v.nodes, w.IsMarked := fun w hw =>
    Token.isMarked_of_mem_scan (htokens w hw)
  have hu : u ∈ Node.allTokens v.nodes := by simp [hsplit, Node.allTokens, Node.tokens]
  have htext : u.text = [','] := hmarked u hu ',' (by rw [hk]; rfl)
  have hahead : Node.AllFull ahead := by
    rw [hsplit, Node.allFull_append] at hfull
    exact hfull.1
  obtain ⟨upto, row, rest, hrows, hgather⟩ :=
    Draft.exists_rows_comma (f := v.frame) hlists hk
      (Token.not_isBlank_of_mem_scan (htokens u hu)) ahead behind
  -- What is visible up to the comma was gathered of the nodes ahead of it.
  have hvisible := visible_flatten_map c v.margin (upto ++ [row])
  rw [hgather, Gathering.visible_ofDraft_addNodes c _ _
    (fun w hw => hmarked w (by simp [hsplit, hw])) hahead, List.map_append, List.map_singleton,
    List.flatten_append, List.flatten_singleton] at hvisible
  have hcomma : Line.shown c (row ++ [.verbatim u]) = row.shown c ++ [','] := by
    rw [Line.shown_append, ← htext]
    exact congrArg _ (List.append_nil _)
  rw [← hsplit] at hrows
  refine ⟨_, Text.spaces v.margin ++ row.shown c,
    rest.map fun l => Text.spaces v.margin ++ l.shown c, ?_, hvisible⟩
  rw [written, show v.rows = _ from hrows, List.map_append, List.map_cons, hcomma,
    List.append_assoc]

/-- Where nothing else starts lines, each element of such a level is a line. -/
theorem areRow_written (hlists : v.spacing.newLineLists = true)
    (htokens : ∀ u ∈ Node.allTokens v.nodes, u ∈ Token.scan t)
    (hplain : ∀ n ∈ v.nodes, n.IsPlain) :
    List.Forall₂ (Node.AreRow c v.margin) (Node.elements v.nodes) (v.written c) := by
  have hread : ∀ u ∈ Node.allTokens v.nodes, u.IsMarked ∧ Text.isBlank u.text = false ∧
      ∀ e ∈ u.text.head?, Unicode.isBlank e = false := by
    intro u hu
    obtain ⟨before, after, hsplit⟩ := List.append_of_mem (htokens u hu)
    obtain ⟨rest, -, -, hread, -⟩ := Text.scan_split hsplit
    exact ⟨Token.isMarked_of_mem_scan (htokens u hu),
      Token.not_isBlank_of_mem_scan (htokens u hu), hread.not_isBlank_of_mem_head?⟩
  obtain ⟨new, hnew, hrows⟩ : ∃ new, v.rows = new ∧
      List.Forall₂ (Node.AreRow c 0) (Node.elements v.nodes) (new.map (Line.shown c)) :=
    Draft.holds_start.addNodes hlists (by simp) hplain hread
  rw [written, hnew, List.forall₂_map_right_iff]
  rw [List.forall₂_map_right_iff] at hrows
  -- The rows are moved by the margin.
  refine hrows.imp fun element row harerow => ?_
  obtain ⟨e, r, hrow, he, hvisible⟩ := harerow
  refine ⟨e, r, ?_, he, hvisible⟩
  rw [hrow]
  rfl

/-- The lines of a block in which lists take lines of their own are those of a list. -/
theorem isListed_of_encloses {ls above : List Text} {line tail : Text} {below : List Text}
    (h : v.Encloses c front interior span ls above line tail below)
    (hlists : (v.inside front interior span).spacing.newLineLists = true)
    (hfull : Node.AllFull interior) (htokens : ∀ u ∈ Node.allTokens interior, u ∈ Token.scan t) :
    v.IsListed c front interior ls above line ((v.inside front interior span).written c) tail
      below where
  lines := h.lines
  before := h.before
  shown := by
    rw [written, visible_flatten_map, rows, Draft.ofLines_rows]
    exact Gathering.visible_ofDraft_addNodes c _ _
      (fun u hu => Token.isMarked_of_mem_scan (htokens u hu)) hfull
  commas := fun _ _ _ => exists_written_comma hlists hfull htokens
  elements := areRow_written hlists htokens

/-- A list, at whatever depth of the nodes of a text, has a new line behind its parenthesis and
    behind each of its commas, and one in front of the parenthesis that closes it. When nothing in
    it starts lines, each element is a line, one level deeper than the list. -/
theorem isListed_layOut (c : Casing) (hns : Node.ofTokens (Token.scan t) = .ok ns)
    (hv : Of s ns v) (hnodes : v.nodes = front ++ .block interior span :: back)
    (hcommas : 2 ≤ interior.countP Node.isComma ∨
      v.frame.isCreate = true ∧ 1 ≤ interior.countP Node.isComma)
    (hmany : interior.length ≠ 1) :
    ∃ ls, Node.layOut s ns = .ok ls ∧ ∃ above line rows tail below,
      v.IsListed c front interior (ls.map (Line.shown c)) above line rows tail below := by
  have hlist : listCommas v.frame ≤ interior.countP Node.isComma := by
    unfold listCommas
    rcases hcommas with htwo | ⟨hcreate, hone⟩
    · split
      · omega
      · exact htwo
    · rwa [if_pos hcreate]
  obtain ⟨startsWithKeyword, hform⟩ := exists_blockForm_of_commas hlist hmany
  have hlists : (v.inside front interior span).spacing.newLineLists = true := by
    show ((blockForm v.frame interior).spacing v.spacing).newLineLists = true
    rw [hform]
    rfl
  obtain ⟨hfull, -⟩ := Node.full_and_shown_of_ofTokens hns
  have htokens := Node.allTokens_ofTokens (fun _ hu => Token.isParenPlaced_of_mem_scan hu) hns
  have hinside := Of.inside hv hnodes
  obtain ⟨ls, hls, above, line, tail, below, hencloses⟩ := hv.exists_encloses hns hnodes hform c
  exact ⟨ls, hls, above, line, _, tail, below, isListed_of_encloses hencloses hlists
    (hinside.allFull hfull) fun u hu => htokens ▸ hinside.mem_allTokens hu⟩

/-- The arguments of a function whose result is the argument of another one. -/
theorem isListed_layOut_argument :
    ∃ (ns : List Node) (v : Level) (front interior : List Node) (span : Span),
      Node.ofTokens (Token.scan "f(g(a,b,c))".toList) = .ok ns ∧ Of ⟨4, false⟩ ns v ∧
      v.before.map Token.text = ["f".toList, "(".toList] ∧
      v.nodes = front ++ .block interior span :: [] ∧
      (2 ≤ interior.countP Node.isComma ∨
        v.frame.isCreate = true ∧ 1 ≤ interior.countP Node.isComma) ∧
      interior.length ≠ 1 ∧
      ∃ ls, Node.layOut ⟨4, false⟩ ns = .ok ls ∧ ∃ above line rows tail below,
        v.IsListed ⟨.upper, .upper⟩ front interior (ls.map (Line.shown ⟨.upper, .upper⟩)) above line
          rows tail below := by
  have hscan : Token.scan "f(g(a,b,c))".toList = [.placed .word ['f'] 0, .placed .openParen ['('] 1,
      .placed .word ['g'] 2, .placed .openParen ['('] 3, .placed .word ['a'] 4,
      .placed .comma [','] 5, .placed .word ['b'] 6, .placed .comma [','] 7, .placed .word ['c'] 8,
      .placed .closeParen [')'] 9, .placed .closeParen [')'] 10] := by decide +kernel
  have hns : Node.ofTokens (Token.scan "f(g(a,b,c))".toList) = .ok
      [.leaf (.placed .word ['f'] 0), .block [.leaf (.placed .word ['g'] 2), .block
        [.leaf (.placed .word ['a'] 4), .leaf (.placed .comma [','] 5),
          .leaf (.placed .word ['b'] 6), .leaf (.placed .comma [','] 7),
          .leaf (.placed .word ['c'] 8)] ⟨3, 10⟩] ⟨1, 11⟩] := by
    rw [hscan]
    rfl
  have hargument : ∀ (f : Node) (interior : List Node) (span : Span),
      Of ⟨4, false⟩ [f, .block interior span]
        (inside ⟨⟨4, false⟩, [f, .block interior span], [], 0⟩ [f] interior span) :=
    fun _ _ _ => .inside .whole rfl
  refine ⟨_, _, [_], _, _, hns, hargument _ _ _, rfl, rfl, .inl (by decide), by decide, ?_⟩
  exact isListed_layOut ⟨.upper, .upper⟩ hns (hargument _ _ _) rfl (.inl (by decide)) (by decide)

/-- A comma and nothing else stays between its parentheses, also where an object is created. -/
theorem not_isListed_layOut_comma :
    ¬∀ (s : Spacing) (c : Casing) (t : Text) (ns : List Node) (v : Level)
      (front interior back : List Node) (span : Span),
      Node.ofTokens (Token.scan t) = .ok ns → Of s ns v →
      v.nodes = front ++ .block interior span :: back →
      (2 ≤ interior.countP Node.isComma ∨
        v.frame.isCreate = true ∧ 1 ≤ interior.countP Node.isComma) →
      ∃ ls, Node.layOut s ns = .ok ls ∧ ∃ above line rows tail below,
        v.IsListed c front interior (ls.map (Line.shown c)) above line rows tail below := by
  intro h
  have hscan : Token.scan "CREATE (,)".toList = [.placed .verb "CREATE".toList 0,
      .placed .openParen ['('] 7, .placed .comma [','] 8, .placed .closeParen [')'] 9] := by
    decide +kernel
  have hns : Node.ofTokens (Token.scan "CREATE (,)".toList) = .ok
      [.leaf (.placed .verb "CREATE".toList 0),
        .block [.leaf (.placed .comma [','] 8)] ⟨7, 10⟩] := by
    rw [hscan]
    rfl
  have hcreate : (Frame.ofNodes [.leaf (.placed .verb "CREATE".toList 0),
      .block [.leaf (.placed .comma [','] 8)] ⟨7, 10⟩]).isCreate = true := by decide +kernel
  have hlines : Node.layOut ⟨4, false⟩ [.leaf (.placed .verb "CREATE".toList 0),
      .block [.leaf (.placed .comma [','] 8)] ⟨7, 10⟩]
        = .ok [[.cased (.placed .verb "CREATE".toList 0), .openParen,
            .cased (.placed .comma [','] 8), .closeParen]] := by
    decide +kernel
  obtain ⟨ls, hls, above, line, rows, tail, below, hlisted⟩ := h ⟨4, false⟩ ⟨.preserve, .preserve⟩ _
    _ _ [_] _ [] _ hns .whole rfl (.inr ⟨hcreate, by decide⟩)
  obtain rfl := Except.ok.inj (hls.symm.trans hlines)
  -- The line of the parenthesis would not be the only one.
  have hlength := congrArg List.length hlisted.lines
  simp only [List.length_map, List.length_append, List.length_cons, List.length_nil] at hlength
  omega

end Level

end SqlScript
