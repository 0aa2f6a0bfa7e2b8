import SqlScript.Layout.Page
import SqlScript.Proofs.Layout.Step
import SqlScript.Proofs.Script.Split

namespace SqlScript

/-!
# What lines are made of

The layout moves blanks about, and everything else stays as it is: no piece is lost with a line that
is dropped, none is put twice, and the order is that of the script. What there is to say about
pieces that are not blank therefore holds of the tokens that are laid out.

* `Gathering` — something that pieces and tokens agree on, and that blank pieces have none of;
* `Gathering.ofLines` — what is gathered from lines;
* `Gathering.draft_addNodes` — laying out nodes adds what is gathered from their tokens;
* `Gathering.script_layOut` — the lines of a script are made of the tokens of its statements, and of
  a terminator behind each statement that is to be ended;
* `Script.isBlank_or_of_layOut` — a property of tokens holds of all pieces but the blank ones.
-/

/-! ### Marks and parentheses -/

/-- Whether the token, when it is a mark, is written as such. -/
def Token.IsMarked (t : Token) : Prop := ∀ c, t.kind.mark? = some c → t.text = [c]

/-- A mark that is placed is written as such. -/
theorem isMarked_placed {k : Kind} {c : Char} (hk : k.mark? = some c) (start : Int) :
    (Token.placed k [c] start).IsMarked := by
  intro d hd
  obtain rfl : c = d := Option.some.inj (hk.symm.trans hd)
  rfl

/-- Marks have no case. -/
theorem LetterCase.apply_mark {k : Kind} {c : Char} (hk : k.mark? = some c) (l : LetterCase) :
    l.apply [c] = [c] := by
  have hmark : c ∈ ['(', ')', ',', '.', ':', '=', ';'] := by
    cases k <;> simp only [Kind.mark?, Option.some.injEq, reduceCtorEq] at hk <;> subst hk <;>
      decide
  have hall : ['(', ')', ',', '.', ':', '=', ';'].all (fun d => l.apply [d] == [d]) = true := by
    cases l <;> decide
  simpa using List.all_eq_true.mp hall c hmark

/-- What has no case is written as it is. -/
theorem Casing.apply_of_mark? (c : Casing) {t : Token} (ht : t.IsMarked) {m : Char}
    (hm : t.kind.mark? = some m) : c.apply t = t.text := by
  rw [ht m hm]
  unfold Casing.apply
  rw [ht m hm]
  split
  · rfl
  · split <;> exact LetterCase.apply_mark hm _

/-- Comments are written as they are. -/
theorem Casing.apply_of_comment (c : Casing) {t : Token} (ht : t.kind = .comment) :
    c.apply t = t.text := by
  simp [Casing.apply, ht, Kind.keepsCase]

namespace Token

/-- The marks of a text are written as such. -/
theorem isMarked_of_mem_scan {u : Text} {t : Token} (h : t ∈ scan u) : t.IsMarked := by
  obtain ⟨before, after, hsplit⟩ := List.append_of_mem h
  obtain ⟨rest, -, -, hread, -⟩ := Text.scan_split hsplit
  exact fun c hc => hread.form.text_of_mark? hc

/-- The parentheses of a text are written as such. -/
theorem isParenPlaced_of_mem_scan {u : Text} {t : Token} (h : t ∈ scan u) : t.IsParenPlaced := by
  have hmark := isMarked_of_mem_scan h
  obtain ⟨before, after, hsplit⟩ := List.append_of_mem h
  obtain ⟨-, place, hplace, -, -⟩ := Text.scan_split hsplit
  constructor
  · intro hk
    have htext : t.text = ['('] := hmark '(' (by rw [hk]; rfl)
    rw [hplace, hk, htext]
    rfl
  · intro hk
    have htext : t.text = [')'] := hmark ')' (by rw [hk]; rfl)
    rw [hplace, hk, htext]
    simp [placed]

end Token

/-! ### Gathering -/

/-- Something that is gathered from pieces. Blank pieces have none of it, and a piece that shows a
    token has what the token has. -/
structure Gathering (α : Type) where
  ofPiece : Piece → List α
  ofToken : Token → List α
  ofPiece_of_isBlank : ∀ p, Text.isBlank p.source = true → ofPiece p = []
  ofPiece_cased : ∀ t, ofPiece (.cased t) = ofToken t
  ofPiece_verbatim : ∀ t : Token, t.IsMarked → t.kind.mark?.isSome = true ∨ t.kind = .comment →
    ofPiece (.verbatim t) = ofToken t
  ofToken_opening : ∀ span, ofToken (Node.opening span) = ofPiece .openParen
  ofToken_closing : ∀ span, ofToken (Node.closing span) = ofPiece .closeParen

namespace Gathering

variable {α : Type} (g : Gathering α)

/-! ### Lines -/

/-- What is gathered from a line. -/
def ofLine (l : Line) : List α := l.flatMap g.ofPiece

/-- What is gathered from lines, one after the other. -/
def ofLines (ls : List Line) : List α := ls.flatMap g.ofLine

/-- Nothing is gathered from an empty line. -/
@[simp] theorem ofLine_nil : g.ofLine [] = [] := rfl

/-- What is gathered from a line is gathered from its pieces, one after the other. -/
@[simp] theorem ofLine_cons (p : Piece) (l : Line) :
    g.ofLine (p :: l) = g.ofPiece p ++ g.ofLine l := rfl

/-- Two parts of a line are gathered from one after the other. -/
@[simp] theorem ofLine_append (l m : Line) : g.ofLine (l ++ m) = g.ofLine l ++ g.ofLine m :=
  List.flatMap_append

/-- Nothing is gathered from no lines. -/
@[simp] theorem ofLines_nil : g.ofLines [] = [] := rfl

/-- What is gathered from lines is gathered from each of them in turn. -/
@[simp] theorem ofLines_cons (l : Line) (ls : List Line) :
    g.ofLines (l :: ls) = g.ofLine l ++ g.ofLines ls := rfl

/-- Two sequences of lines are gathered from one after the other. -/
@[simp] theorem ofLines_append (ls ms : List Line) :
    g.ofLines (ls ++ ms) = g.ofLines ls ++ g.ofLines ms :=
  List.flatMap_append

/-- Nothing is gathered from padding. -/
@[simp] theorem ofPiece_pad (width : Nat) : g.ofPiece (.pad width) = [] := by
  apply g.ofPiece_of_isBlank
  refine List.all_eq_true.mpr fun c hc => ?_
  rw [List.eq_of_mem_replicate hc]
  decide

/-- Nothing is gathered from an indentation. -/
@[simp] theorem ofLine_indented (width : Int) : g.ofLine (Line.indented width) = [] := by
  simp [Line.indented]

/-- There is nothing in a blank line. -/
theorem ofLine_of_isBlank {l : Line} (h : l.isBlank = true) : g.ofLine l = [] := by
  induction l with
  | nil => rfl
  | cons p l ih =>
    have hsplit : Text.isBlank p.source = true ∧ Line.isBlank l = true := by
      simpa [Line.isBlank, Line.source, Text.isBlank] using h
    rw [ofLine_cons, g.ofPiece_of_isBlank p hsplit.1, ih hsplit.2, List.nil_append]

/-- Nothing is gathered from blank lines. -/
theorem ofLines_of_all_isBlank {ls : List Line} (h : ∀ l ∈ ls, l.isBlank = true) :
    g.ofLines ls = [] := by
  induction ls with
  | nil => rfl
  | cons l ls ih =>
    rw [ofLines_cons, g.ofLine_of_isBlank (h l (by simp)), ih fun m hm => h m (by simp [hm])]
    rfl

/-- A blank line that is dropped at the end is not missed. -/
@[simp] theorem ofLines_dropBlankLast (ls : List Line) :
    g.ofLines (Line.dropBlankLast ls) = g.ofLines ls := by
  unfold Line.dropBlankLast
  split
  · rename_i h
    cases hlast : ls.getLast? with
    | none => simp [hlast] at h
    | some l =>
      have hblank : l.isBlank = true := by simpa [hlast] using h
      obtain ⟨ms, rfl⟩ := List.getLast?_eq_some_iff.mp hlast
      rw [List.dropLast_concat, ofLines_append, ofLines_cons, g.ofLine_of_isBlank hblank]
      simp
  · rfl

/-- Blank lines that are dropped at the end are not missed. -/
@[simp] theorem ofLines_dropBlankEnd (ls : List Line) :
    g.ofLines (Line.dropBlankEnd ls) = g.ofLines ls := by
  cases ls with
  | nil => rfl
  | cons l rest =>
    have hsplit : rest = (rest.reverse.dropWhile Line.isBlank).reverse
        ++ (rest.reverse.takeWhile Line.isBlank).reverse := by
      rw [← List.reverse_append, List.takeWhile_append_dropWhile, List.reverse_reverse]
    have hblank : g.ofLines (rest.reverse.takeWhile Line.isBlank).reverse = [] :=
      g.ofLines_of_all_isBlank fun m hm =>
        List.all_eq_true.mp List.all_takeWhile m (List.mem_reverse.mp hm)
    rw [Line.dropBlankEnd, ofLines_cons, ofLines_cons]
    conv_rhs => rw [hsplit, ofLines_append, hblank, List.append_nil]

/-- There is nothing in an indentation. -/
@[simp] theorem ofLines_map_indented (width : Int) (ls : List Line) :
    g.ofLines (ls.map (Line.indented width ++ ·)) = g.ofLines ls := by
  induction ls with
  | nil => rfl
  | cons l ls ih =>
    rw [List.map_cons, ofLines_cons, ih, ofLine_append, ofLine_indented, List.nil_append,
      ofLines_cons]

/-! ### Drafts -/

/-- What is gathered from a draft. -/
def ofDraft (d : Draft) : List α := g.ofLines d.lines

/-- Nothing is gathered at the start. -/
@[simp] theorem ofDraft_start : g.ofDraft .start = [] := rfl

/-- A piece that is put adds what is gathered from it. -/
@[simp] theorem ofDraft_put (d : Draft) (p : Piece) :
    g.ofDraft (d.put p) = g.ofDraft d ++ g.ofPiece p := by
  simp [ofDraft, Draft.lines, Draft.put]

/-- The pieces of a line add what is gathered from the line. -/
@[simp] theorem ofDraft_putAll (d : Draft) (l : Line) :
    g.ofDraft (d.putAll l) = g.ofDraft d ++ g.ofLine l := by
  unfold Draft.putAll
  induction l generalizing d with
  | nil => simp
  | cons p l ih => simp [ih]

/-- A new line adds nothing. -/
@[simp] theorem ofDraft_breakLine (d : Draft) : g.ofDraft d.breakLine = g.ofDraft d := by
  unfold Draft.breakLine ofDraft Draft.lines
  split
  · rename_i h
    simp [g.ofLine_of_isBlank h]
  · simp

/-- A new line with another indentation adds nothing. -/
@[simp] theorem ofDraft_startLine (s : Spacing) (levels : Int) (d : Draft) :
    g.ofDraft (d.startLine s levels) = g.ofDraft d :=
  g.ofDraft_breakLine { d with indent := d.indent + levels * s.indentWidth }

/-- The lines of a block add what is gathered from them, as only blank ones are left out. -/
@[simp] theorem ofDraft_insert (s : Spacing) (ls : List Line) (d : Draft) :
    g.ofDraft (d.insert s ls) = g.ofDraft d ++ g.ofLines ls := by
  have hkept : g.ofLines (if 1 < ls.length then Line.dropBlankLast ls else ls) = g.ofLines ls := by
    split <;> simp
  simp [ofDraft, Draft.lines, Draft.insert, hkept]

/-- A fault that is noted adds nothing. -/
@[simp] theorem ofDraft_note (fault : Option StructureError) (d : Draft) :
    g.ofDraft (d.note fault) = g.ofDraft d := rfl

/-- Nothing is lost when a draft is finished. -/
@[simp] theorem ofLines_finish (d : Draft) : g.ofLines d.finish = g.ofDraft d := by
  unfold Draft.finish ofDraft
  split <;> simp

/-! ### Steps -/

/-- A space adds nothing. -/
theorem ofDraft_spaces {d e : Draft} (h : d.Spaces e) : g.ofDraft e = g.ofDraft d := by
  cases h <;> simp

/-- Nothing is added in front of the next token. -/
theorem ofDraft_opens {d e : Draft} {s : Spacing} (h : d.Opens s e) :
    g.ofDraft e = g.ofDraft d := by
  cases h with
  | inLine h => exact g.ofDraft_spaces h
  | startLine levels => exact g.ofDraft_startLine s levels d

/-- From a piece that writes a token there is gathered what the token has. -/
theorem ofPiece_writes {t : Token} (ht : t.IsMarked) {p : Piece} (h : p.Writes t) :
    g.ofPiece p = g.ofToken t := by
  cases h with
  | verbatim hk => exact g.ofPiece_verbatim t ht hk
  | cased => exact g.ofPiece_cased t

/-- A token adds what is gathered from it. -/
theorem ofDraft_tokenStep {d e : Draft} {s : Spacing} {t : Token} (ht : t.IsMarked)
    (h : d.TokenStep s t e) : g.ofDraft e = g.ofDraft d ++ g.ofToken t := by
  cases h with
  | put hopens hp _ => rw [ofDraft_put, g.ofDraft_opens hopens, g.ofPiece_writes ht hp]
  | putLine levels hopens hp _ =>
    rw [ofDraft_startLine, ofDraft_put, g.ofDraft_opens hopens, g.ofPiece_writes ht hp]
  | @lineComment e hspaces hline =>
    have hp : (Piece.verbatim t).Writes t := .verbatim (.inr (Token.kind_of_isLineComment hline))
    rw [ofDraft_startLine, ← g.ofPiece_writes ht hp, ← g.ofDraft_spaces hspaces]
    exact g.ofDraft_put e (.verbatim t)

/-- A block adds its parentheses and what is gathered from its interior. -/
theorem ofDraft_blockStep {d inner e : Draft} {s : Spacing} {interior : List Node} {offset : Int}
    (hne : interior ≠ [])
    (hinner : g.ofDraft inner = (Node.allTokens interior).flatMap g.ofToken)
    (h : d.BlockStep s interior offset inner e) :
    g.ofDraft e = g.ofDraft d ++ (g.ofPiece .openParen ++
      ((Node.allTokens interior).flatMap g.ofToken ++ g.ofPiece .closeParen)) := by
  cases h with
  | empty hnil => exact absurd hnil hne
  | single t hleaf _ => simp [hleaf, g.ofPiece_cased]
  | inLine l _ hfinish =>
    have hl : g.ofLine l = g.ofDraft inner := by
      rw [← ofLines_finish, hfinish]
      simp
    simp [hl, hinner]
  | lines _ hspaces => simp [g.ofDraft_spaces hspaces, hinner]

mutual

/-- A node adds what is gathered from its tokens. -/
theorem draft_addNode (s : Spacing) (f : Frame) (position : Nat) (joined : Bool) (d : Draft) :
    (n : Node) → (∀ t ∈ n.tokens, t.IsMarked) → n.IsFull →
    g.ofDraft (d.addNode s f position joined n) = g.ofDraft d ++ n.tokens.flatMap g.ofToken
  | .leaf t, ht, _ => by
    rw [Draft.addNode, g.ofDraft_tokenStep (ht t (by simp [Node.tokens])) (d.tokenStep_addToken ..)]
    simp [Node.tokens]
  | .block interior span, ht, hfull => by
    have hinterior : ∀ t ∈ Node.allTokens interior, t.IsMarked := fun t hmem =>
      ht t (by simp [Node.tokens, hmem])
    have hinner := draft_addNodes ((blockForm f interior).spacing s) (Frame.ofNodes interior) 0
      false .start interior hinterior hfull.2
    rw [ofDraft_start, List.nil_append] at hinner
    rw [Draft.addNode, g.ofDraft_blockStep hfull.1 hinner (d.blockStep_addBlock ..)]
    simp [Node.tokens, g.ofToken_opening, g.ofToken_closing]

/-- Laying out nodes adds what is gathered from their tokens. -/
theorem draft_addNodes (s : Spacing) (f : Frame) (position : Nat) (joined : Bool) (d : Draft) :
    (ns : List Node) → (∀ t ∈ Node.allTokens ns, t.IsMarked) → Node.AllFull ns →
    g.ofDraft (d.addNodes s f position joined ns)
      = g.ofDraft d ++ (Node.allTokens ns).flatMap g.ofToken
  | [], _, _ => by simp [Draft.addNodes, Node.allTokens]
  | n :: rest, ht, hfull => by
    rw [Draft.addNodes, draft_addNodes s f _ _ _ rest
        (fun t hmem => ht t (by simp [Node.allTokens, hmem])) hfull.2,
      draft_addNode s f position joined d n
        (fun t hmem => ht t (by simp [Node.allTokens, hmem])) hfull.1]
    simp [Node.allTokens]

end

/-- The lines of nodes are made of their tokens. -/
theorem node_layOut {s : Spacing} {ns : List Node} {ls : List Line}
    (ht : ∀ t ∈ Node.allTokens ns, t.IsMarked) (hfull : Node.AllFull ns)
    (h : Node.layOut s ns = .ok ls) : g.ofLines ls = (Node.allTokens ns).flatMap g.ofToken := by
  unfold Node.layOut at h
  split at h
  · exact absurd h (by simp)
  · obtain rfl := Except.ok.inj h
    rw [ofLines_finish, Node.draft, g.draft_addNodes s _ _ _ _ ns ht hfull]
    rfl

/-! ### Statements and scripts -/

/-- The terminator is all that ending a statement adds. -/
theorem ofLines_terminated (ls : List Line) :
    g.ofLines (terminated ls) = g.ofLines ls ++ g.ofPiece .terminator := by
  unfold terminated
  cases hlast : ls.getLast? with
  | none =>
    obtain rfl := List.getLast?_eq_none_iff.mp hlast
    simp
  | some l =>
    obtain ⟨ms, rfl⟩ := List.getLast?_eq_some_iff.mp hlast
    simp

/-- What is gathered from a statement, with the terminator that ends it. -/
def ofStatement (s : Statement) : List α :=
  s.tokens.flatMap g.ofToken ++ if s.isTerminated then g.ofPiece .terminator else []

end Gathering

/-- What the layout of a statement is: that of its nodes, and perhaps a terminator. -/
theorem Statement.layOut_eq_ok {sp : Spacing} {s : Statement} {ls : List Line}
    (h : s.layOut sp = .ok ls) : ∃ (ns : List Node) (own : List Line),
      Node.ofTokens s.tokens = .ok ns ∧ Node.layOut sp ns = .ok own ∧
      ls = if s.significant.isEmpty then Line.dropBlankEnd own
        else if s.isTerminated then terminated own else own := by
  unfold layOut at h
  cases hns : Node.ofTokens s.tokens with
  | error e => simp [hns, bind, Except.bind] at h
  | ok ns =>
    cases hown : Node.layOut sp ns with
    | error e => simp [hns, hown, bind, Except.bind] at h
    | ok own =>
      simp only [hns, hown, bind, Except.bind, pure, Except.pure, Except.ok.injEq] at h
      exact ⟨ns, own, rfl, hown, h.symm⟩

/-- What the layout of statements is: that of the first one, and that of the others. -/
theorem Style.layOut_cons_eq_ok {style : Style} {previous : Option Statement} {s : Statement}
    {indent : Int} {ss : List (Statement × Int)} {ls : List Line}
    (h : style.layOut previous ((s, indent) :: ss) = .ok ls) : ∃ own others : List Line,
      s.layOut style.spacing = .ok own ∧ style.layOut (some s) ss = .ok others ∧
      ls = (if style.separates previous s then [[]] else []) ++
        own.map (Line.indented indent ++ ·) ++ others := by
  rw [layOut] at h
  cases hown : s.layOut style.spacing with
  | error e => simp [hown, bind, Except.bind] at h
  | ok own =>
    cases hothers : style.layOut (some s) ss with
    | error e => simp [hown, hothers, bind, Except.bind] at h
    | ok others =>
      simp only [hown, hothers, bind, Except.bind, pure, Except.pure, Except.ok.injEq] at h
      exact ⟨own, others, rfl, rfl, h.symm⟩

/-- What holds of the lines of each statement, and of empty lines, holds of all lines, provided that
    it does not depend on indentations. -/
theorem Style.forall_mem_layOut {P : Line → Prop} (hnil : P [])
    (hindented : ∀ width l, P l → P (Line.indented width ++ l)) {style : Style}
    {previous : Option Statement} {ss : List (Statement × Int)} {ls : List Line}
    (hss : ∀ p ∈ ss, ∀ own, p.1.layOut style.spacing = .ok own → ∀ l ∈ own, P l)
    (h : style.layOut previous ss = .ok ls) : ∀ l ∈ ls, P l := by
  induction ss generalizing previous ls with
  | nil =>
    obtain rfl := Except.ok.inj h
    simp
  | cons p ss ih =>
    obtain ⟨s, indent⟩ := p
    obtain ⟨own, others, hown, hothers, rfl⟩ := layOut_cons_eq_ok h
    intro l hl
    rcases List.mem_append.mp hl with hl | hl
    · rcases List.mem_append.mp hl with hl | hl
      · -- The line in front of the statement is empty.
        split at hl
        · rwa [List.mem_singleton.mp hl]
        · exact absurd hl (by simp)
      · obtain ⟨m, hm, rfl⟩ := List.mem_map.mp hl
        exact hindented indent m (hss (s, indent) (by simp) own hown m hm)
    · exact ih (fun q hq => hss q (by simp [hq])) hothers l hl

/-- Only a statement with a token apart from comments is ended. -/
theorem Statement.isTerminated_iff {s : Statement} :
    s.isTerminated = true ↔ s.significant ≠ [] ∧ s.opener? = none := by
  simp [isTerminated]

namespace Gathering

variable {α : Type} (g : Gathering α)

/-- The lines of a statement are made of its tokens, and of the terminator that ends it. -/
theorem statement_layOut {sp : Spacing} {s : Statement} {ls : List Line}
    (hmarked : ∀ t ∈ s.tokens, t.IsMarked) (hparens : ∀ t ∈ s.tokens, t.IsParenPlaced)
    (h : s.layOut sp = .ok ls) : g.ofLines ls = g.ofStatement s := by
  obtain ⟨ns, own, hns, hown, rfl⟩ := Statement.layOut_eq_ok h
  have htokens := Node.allTokens_ofTokens hparens hns
  have hlines := g.node_layOut (by rwa [htokens]) (Node.allFull_ofTokens hparens hns) hown
  rw [htokens] at hlines
  by_cases hsig : s.significant = []
  · -- There are only comments, which are not ended.
    simp [hsig, ofStatement, Statement.isTerminated, hlines]
  · have hempty : s.significant.isEmpty = false := by simpa using hsig
    rw [hempty, if_neg (by decide), ofStatement]
    split
    · rw [ofLines_terminated, hlines]
    · rw [hlines, List.append_nil]

/-- The lines of statements are made of the statements, in order. -/
theorem statements_layOut (style : Style) {previous : Option Statement}
    {ss : List (Statement × Int)} {ls : List Line}
    (hmarked : ∀ p ∈ ss, ∀ t ∈ p.1.tokens, t.IsMarked)
    (hparens : ∀ p ∈ ss, ∀ t ∈ p.1.tokens, t.IsParenPlaced)
    (h : style.layOut previous ss = .ok ls) :
    g.ofLines ls = (ss.map (·.1)).flatMap g.ofStatement := by
  induction ss generalizing previous ls with
  | nil =>
    obtain rfl := Except.ok.inj h
    rfl
  | cons p ss ih =>
    obtain ⟨s, indent⟩ := p
    obtain ⟨own, others, hown, hothers, rfl⟩ := Style.layOut_cons_eq_ok h
    have hgap : g.ofLines (if style.separates previous s then [[]] else []) = [] := by
      split <;> rfl
    have hs := g.statement_layOut (hmarked (s, indent) (by simp)) (hparens (s, indent) (by simp))
      hown
    have hrest := ih (fun q hq => hmarked q (by simp [hq])) (fun q hq => hparens q (by simp [hq]))
      hothers
    rw [ofLines_append, ofLines_append, hgap, ofLines_map_indented, hs, hrest]
    simp

end Gathering

/-- Indenting statements keeps them, in order. -/
theorem map_fst_indentations (width : Nat) (indent : Int) (ss : List Statement) :
    (indentations width indent ss).map (·.1) = ss := by
  induction ss generalizing indent with
  | nil => rfl
  | cons s rest ih => simp only [indentations, List.map_cons, ih]

/-- The statements of the groups are those of the script. -/
theorem Script.map_fst_indentations (width : Nat) (t : Text) :
    ((Script.ofText t).indentations width).map (·.1) = (Script.ofText t).statements := by
  simp only [Script.indentations, List.map_flatMap, SqlScript.map_fst_indentations]
  exact Group.flatMap_ofStatements _

/-- The statements that are laid out have the tokens of the text. -/
theorem Script.mem_scan_of_mem_indentations {width : Nat} {t : Text} {p : Statement × Int}
    (hp : p ∈ (Script.ofText t).indentations width) {u : Token} (hu : u ∈ p.1.tokens) :
    u ∈ Token.scan t := by
  have hs : p.1 ∈ (Script.ofText t).statements := by
    rw [← Script.map_fst_indentations width t]
    exact List.mem_map_of_mem hp
  exact Statement.mem_of_mem_tokens hs hu

/-- The lines of a script are made of its statements, in order. -/
theorem Gathering.script_layOut {α : Type} (g : Gathering α) {style : Style} {t : Text}
    {ls : List Line} (h : (Script.ofText t).layOut style = .ok ls) :
    g.ofLines ls = (Script.ofText t).statements.flatMap g.ofStatement := by
  rw [← Script.map_fst_indentations style.spacing.indentWidth t]
  exact g.statements_layOut style
    (fun p hp u hu => Token.isMarked_of_mem_scan (Script.mem_scan_of_mem_indentations hp hu))
    (fun p hp u hu => Token.isParenPlaced_of_mem_scan (Script.mem_scan_of_mem_indentations hp hu)) h

/-- Whether pieces have a property, as something that is gathered: where they have it there is
    nothing to gather. -/
def Gathering.ofProperty (P : Piece → Bool) (hverbatim : ∀ t : Token, t.IsMarked →
      t.kind.mark?.isSome = true ∨ t.kind = .comment → P (.verbatim t) = P (.cased t))
    (hopening : ∀ span, P (.cased (Node.opening span)) = P .openParen)
    (hclosing : ∀ span, P (.cased (Node.closing span)) = P .closeParen) : Gathering Unit where
  ofPiece p := if Text.isBlank p.source || P p then [] else [()]
  ofToken t := if Text.isBlank t.text || P (.cased t) then [] else [()]
  ofPiece_of_isBlank p h := by rw [h, Bool.true_or, if_pos rfl]
  ofPiece_cased _ := rfl
  ofPiece_verbatim t ht hk := by
    rw [hverbatim t ht hk]
    rfl
  ofToken_opening span := by
    rw [hopening]
    rfl
  ofToken_closing span := by
    rw [hclosing]
    rfl

/-- What holds of the tokens of a script, and of what stands for them in lines, holds of all pieces
    in the lines of the script but the blank ones. -/
theorem Script.isBlank_or_of_layOut {P : Piece → Bool} (hverbatim : ∀ t : Token, t.IsMarked →
      t.kind.mark?.isSome = true ∨ t.kind = .comment → P (.verbatim t) = P (.cased t))
    (hopening : ∀ span, P (.cased (Node.opening span)) = P .openParen)
    (hclosing : ∀ span, P (.cased (Node.closing span)) = P .closeParen)
    (hterminator : P .terminator = true) {style : Style} {t : Text} {ls : List Line}
    (htokens : ∀ u ∈ Token.scan t, P (.cased u) = true)
    (h : (Script.ofText t).layOut style = .ok ls) :
    ∀ l ∈ ls, ∀ p ∈ l, Text.isBlank p.source = true ∨ P p = true := by
  let g := Gathering.ofProperty P hverbatim hopening hclosing
  have hstatement : ∀ s ∈ (Script.ofText t).statements, g.ofStatement s = [] := fun s hs => by
    have hown : s.tokens.flatMap g.ofToken = [] := List.flatMap_eq_nil_iff.mpr fun u hu => by
      exact if_pos (by rw [htokens u (Statement.mem_of_mem_tokens hs hu), Bool.or_true])
    have hend : g.ofPiece .terminator = [] := if_pos (by rw [hterminator, Bool.or_true])
    rw [Gathering.ofStatement, hown, hend, ite_self]
    rfl
  have hlines : g.ofLines ls = [] := by
    rw [g.script_layOut h]
    exact List.flatMap_eq_nil_iff.mpr hstatement
  intro l hl p hp
  have hpiece : g.ofPiece p = [] :=
    List.flatMap_eq_nil_iff.mp (List.flatMap_eq_nil_iff.mp hlines l hl) p hp
  -- What lacks the property would be gathered.
  by_contra hP
  rw [not_or, Bool.not_eq_true, Bool.not_eq_true] at hP
  have hgathered : g.ofPiece p = [()] := if_neg (by rw [hP.1, hP.2]; decide)
  exact absurd (hgathered.symm.trans hpiece) (by simp)

/-- A script that is formatted has lines, and their text. -/
theorem Style.format_eq_ok {style : Style} {t r : Text} (h : style.format t = .ok r) :
    ∃ ls : List Line, (Script.ofText t).layOut style = .ok ls ∧
      r = Script.write style.casing (Text.lineBreak t) ls := by
  unfold Style.format Script.format at h
  cases hls : (Script.ofText t).layOut style with
  | error e => simp [hls, Except.map] at h
  | ok ls =>
    simp only [hls, Except.map, Except.ok.injEq] at h
    exact ⟨ls, rfl, h.symm⟩

end SqlScript
