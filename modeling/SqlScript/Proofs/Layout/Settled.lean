import SqlScript.Proofs.Layout.Adjacent
import SqlScript.Proofs.Script.Depth
import SqlScript.Proofs.Token.Recase

namespace SqlScript

/-!
# What lines end with

Lines are written without the blanks at their ends. A comment can lose some of its text by that, and
nothing else can: a literal or a delimited name that is never closed goes on to the end of the script,
and the semicolon that ends its statement stands behind it.

* `Piece.Shows` — whether a piece shows tokens with a property alone, and `Draft.isInvariant_shows` — in
  a layout all pieces do when all tokens have the property;
* `Token.isWhole` — whether a token is a comment or closed;
* `Line.IsSettled` — whether the pieces of a line are whole, or a semicolon is at its end;
* `Script.shows_layOut` and `Script.isSettled_layOut` — all lines of a script show tokens of the
  script, and are settled.
-/

/-! ### The tokens of lines -/

/-- Whether the token that the piece shows, if there is one, has the property. Only marks and comments
    are shown as they are. -/
def Piece.Shows (T : Token → Prop) : Piece → Prop
  | .verbatim t => T t ∧ (t.kind.mark?.isSome = true ∨ t.kind = .comment)
  | .cased t => T t
  | _ => True

/-- The parenthesis that opens a block shows no token. -/
theorem Piece.shows_openParen {T : Token → Prop} : openParen.Shows T := trivial

/-- The parenthesis that closes a block shows no token. -/
theorem Piece.shows_closeParen {T : Token → Prop} : closeParen.Shows T := trivial

/-- A piece that writes a token shows no other one. -/
theorem Piece.Writes.shows {T : Token → Prop} {p : Piece} {t : Token} (h : p.Writes t) (ht : T t) :
    p.Shows T := by
  cases h with
  | verbatim hk => exact ⟨ht, hk⟩
  | cased => exact ht

/-- Whether all tokens that the line shows have the property. -/
def Line.Shows (T : Token → Prop) (l : Line) : Prop := ∀ p ∈ l, p.Shows T

variable {T : Token → Prop}

namespace Line

/-- Two parts of a line show tokens with the property exactly when both do. -/
theorem shows_append {l m : Line} : (l ++ m).Shows T ↔ l.Shows T ∧ m.Shows T :=
  List.forall_mem_append

/-- A line of one piece shows what the piece shows. -/
theorem shows_singleton {p : Piece} : Line.Shows T [p] ↔ p.Shows T := List.forall_mem_singleton

/-- There are no tokens in an indentation. -/
theorem shows_indented (width : Int) : (indented width).Shows T := shows_singleton.mpr trivial

/-- An indentation shows nothing. -/
theorem shows_indented_append {width : Int} {l : Line} :
    (indented width ++ l).Shows T ↔ l.Shows T :=
  shows_append.trans (and_iff_right (shows_indented width))

end Line

namespace Draft

/-- Whether all tokens that the draft shows have the property. -/
def Shows (T : Token → Prop) (d : Draft) : Prop := ∀ l ∈ d.lines, l.Shows T

variable {d : Draft} {p : Piece} {t : Token} {s : Spacing}

/-- A draft without lines shows nothing. -/
theorem shows_start : start.Shows T := by simp [Shows, lines, start, Line.Shows]

/-- A draft shows what is in its complete lines and in the last one. -/
theorem shows_iff : d.Shows T ↔ (∀ l ∈ d.above, l.Shows T) ∧ d.current.Shows T := by
  rw [Shows, lines, List.forall_mem_append, List.forall_mem_singleton]

/-- A piece that shows a token with the property can be put. -/
theorem Shows.put (h : d.Shows T) (hp : p.Shows T) : (d.put p).Shows T := by
  obtain ⟨habove, hcurrent⟩ := shows_iff.mp h
  exact shows_iff.mpr ⟨habove, Line.shows_append.mpr ⟨hcurrent, Line.shows_singleton.mpr hp⟩⟩

/-- A line that shows tokens with the property can be put piece by piece. -/
theorem Shows.putAll (h : d.Shows T) {l : Line} (hl : l.Shows T) : (d.putAll l).Shows T := by
  obtain ⟨habove, hcurrent⟩ := shows_iff.mp h
  rw [shows_iff, above_putAll, current_putAll]
  exact ⟨habove, Line.shows_append.mpr ⟨hcurrent, hl⟩⟩

/-- A new line shows nothing. -/
theorem Shows.breakLine (h : d.Shows T) : d.breakLine.Shows T := by
  obtain ⟨habove, hcurrent⟩ := shows_iff.mp h
  refine shows_iff.mpr ⟨?_, Line.shows_indented _⟩
  show ∀ l ∈ (if d.current.isBlank then d.above else d.above ++ [d.current]), l.Shows T
  split
  · exact habove
  · exact h

/-- A new line with another indentation shows nothing. -/
theorem Shows.startLine (h : d.Shows T) (levels : Int) : (d.startLine s levels).Shows T :=
  breakLine (d := { d with indent := d.indent + levels * s.indentWidth }) h

/-- The lines of a block can be inserted when they show such tokens. -/
theorem Shows.insert (h : d.Shows T) {ls : List Line} (hls : ∀ l ∈ ls, l.Shows T) :
    (d.insert s ls).Shows T :=
  (forall_mem_insert (fun _ _ => Line.shows_indented_append) fun l hl _ => hls l hl).mpr
    ⟨h, hls, Line.shows_indented _⟩

/-- The lines of a finished draft show no more than the draft. -/
theorem Shows.finish (h : d.Shows T) : ∀ l ∈ d.finish, l.Shows T :=
  fun l hl => h l (mem_lines_of_mem_finish hl)

/-- A space shows nothing. -/
theorem Shows.spaces (h : d.Shows T) {e : Draft} (he : d.Spaces e) : e.Shows T := by
  cases he with
  | joined => exact h
  | spaced _ => exact h.put trivial

/-- Nothing is shown in front of the next token. -/
theorem Shows.opens (h : d.Shows T) {e : Draft} (he : d.Opens s e) : e.Shows T := by
  cases he with
  | inLine he => exact h.spaces he
  | startLine levels => exact h.startLine levels

/-- A token shows itself. -/
theorem Shows.tokenStep (h : d.Shows T) (ht : T t) {e : Draft} (he : d.TokenStep s t e) :
    e.Shows T := by
  cases he with
  | put hopens hp _ => exact (h.opens hopens).put (hp.shows ht)
  | putLine levels hopens hp _ => exact ((h.opens hopens).put (hp.shows ht)).startLine levels
  | lineComment hspaces hline =>
    have hp : (Piece.verbatim t).Shows T := ⟨ht, .inr (Token.kind_of_isLineComment hline)⟩
    exact startLine (d := { Draft.put _ (.verbatim t) with afterLineComment := true })
      ((h.spaces hspaces).put hp) 0

/-- A block shows the tokens of its interior. -/
theorem Shows.blockStep (h : d.Shows T) {interior : List Node}
    (ht : ∀ t ∈ Node.allTokens interior, T t) {offset : Int} {inner e : Draft}
    (hinner : inner.Shows T) (he : d.BlockStep s interior offset inner e) : e.Shows T := by
  have hopened : ∀ e : Draft, e.Shows T → ((e.note inner.fault).put .openParen).Shows T :=
    fun e he => Shows.put (d := e.note inner.fault) he Piece.shows_openParen
  cases he with
  | empty _ => exact h
  | single t hleaf _ =>
    have hcased : (Piece.cased t).Shows T := ht t (by simp [hleaf])
    exact ((h.put Piece.shows_openParen).put hcased).put Piece.shows_closeParen
  | inLine l _ hfinish =>
    have hl : l.Shows T := hinner.finish l (by simp [hfinish])
    exact ((hopened d h).putAll hl).put Piece.shows_closeParen
  | lines _ hspaces =>
    exact ((hopened _ (h.spaces hspaces)).insert hinner.finish).put Piece.shows_closeParen

/-- The layout shows what its tokens show. -/
theorem isInvariant_shows (T : Token → Prop) : IsInvariant T (Shows T) where
  start := shows_start
  token ht hd h := hd.tokenStep ht h
  block ht hd hinner h := hd.blockStep ht hinner h

end Draft

/-- The lines of nodes show the tokens of the nodes. -/
theorem Node.shows_layOut {s : Spacing} {ns : List Node} {ls : List Line}
    (ht : ∀ t ∈ Node.allTokens ns, T t) (h : Node.layOut s ns = .ok ls) : ∀ l ∈ ls, l.Shows T := by
  have hdraft : (Node.draft s ns).Shows T :=
    (Draft.isInvariant_shows T).draft ht
  unfold Node.layOut at h
  split at h
  · contradiction
  · obtain rfl := Except.ok.inj h
    exact hdraft.finish

/-! ### Scripts -/

/-- The semicolon behind a statement shows no token of the script. -/
theorem shows_terminated {ls : List Line} (h : ∀ l ∈ ls, l.Shows T) :
    ∀ l ∈ terminated ls, l.Shows T := by
  intro l hl
  rcases List.mem_append.mp hl with hl | hl
  · exact h l ((List.dropLast_sublist ls).subset hl)
  · obtain rfl := List.mem_singleton.mp hl
    refine Line.shows_append.mpr ⟨?_, Line.shows_singleton.mpr trivial⟩
    cases hlast : ls.getLast? with
    | none => exact fun p hp => absurd hp (by simp)
    | some m => exact h m (List.mem_of_getLast? hlast)

/-- The lines of a statement show its tokens. -/
theorem Statement.shows_layOut {sp : Spacing} {s : Statement} {ls : List Line}
    (hparens : ∀ t ∈ s.tokens, t.IsParenPlaced) (ht : ∀ t ∈ s.tokens, T t)
    (h : s.layOut sp = .ok ls) : ∀ l ∈ ls, l.Shows T := by
  obtain ⟨ns, own, hns, hown, rfl⟩ := layOut_eq_ok h
  have hlines := Node.shows_layOut (by rwa [Node.allTokens_ofTokens hparens hns]) hown
  split
  · exact fun l hl => hlines l (Line.mem_dropBlankEnd hl)
  · split
    · exact shows_terminated hlines
    · exact hlines

/-- The lines of a script show its tokens. -/
theorem Script.shows_layOut {style : Style} {t : Text} {ls : List Line}
    (h : (ofText t).layOut style = .ok ls) : ∀ l ∈ ls, l.Shows (· ∈ Token.scan t) :=
  Style.forall_mem_layOut (fun _ hp => absurd hp (by simp))
    (fun _ _ hl => Line.shows_indented_append.mpr hl)
    (fun _ hp _ hown => Statement.shows_layOut
      (fun _ hu => Token.isParenPlaced_of_mem_scan (mem_scan_of_mem_indentations hp hu))
      (fun _ hu => mem_scan_of_mem_indentations hp hu) hown) h

/-! ### Whole tokens -/

/-- Whether the token is closed, or a comment. -/
def Token.isWhole (t : Token) : Bool := t.isComment || !t.lexeme.isOpen

/-- What is not whole is open, and no comment. -/
theorem Token.isWhole_eq_false_iff {t : Token} :
    t.isWhole = false ↔ t.isComment = false ∧ t.lexeme.isOpen = true := by
  rw [isWhole, Bool.or_eq_false_iff, Bool.not_eq_false']

/-- Only literals and delimited names can be open, apart from comments. -/
theorem Token.kind_of_isWhole_eq_false {t : Token} (h : t.isWhole = false) :
    t.kind = .string ∨ t.kind = .delimited := by
  obtain ⟨hcomment, hopen⟩ := isWhole_eq_false_iff.mp h
  cases hk : t.kind <;> simp_all [Lexeme.isOpen, lexeme, isComment]

/-- Among tokens of a text, nothing comes behind an open one. -/
theorem Token.eq_nil_of_isOpen_of_sublist {t : Text} {before after : List Token} {u : Token}
    (h : (before ++ u :: after).Sublist (scan t)) (ho : u.lexeme.isOpen = true) : after = [] := by
  obtain ⟨front, back, hscan, hu, hafter⟩ :=
    List.cons_sublist_iff.mp ((List.sublist_append_right before _).trans h)
  obtain ⟨front, middle, rfl⟩ := List.append_of_mem hu
  -- What stands behind it there stands behind it in the text.
  rw [List.append_assoc, List.cons_append] at hscan
  rw [(List.append_eq_nil_iff.mp (eq_nil_of_isOpen hscan ho)).2] at hafter
  exact List.sublist_nil.mp hafter

namespace Statement

variable {s : Statement} {u : Token}

/-- A statement opens no body when its last token is no word. -/
theorem opener?_eq_none_of_last {before : List Token} (hs : s.tokens = before ++ [u])
    (hread : u.IsRead) (hcomment : u.isComment = false) (hk : u.kind.isBareWord = false) :
    s.opener? = none := by
  have hspells : ∀ w, isReserved w = true → u.spells w = false := fun w =>
    hread.spells_eq_false_of_kind hk
  have hverb : Verb.ofKey? u.key = none := by
    by_contra hsome
    have hspelled : u.spells (String.ofList u.key) = true := by simp [Token.spells]
    rw [hread.kind_eq_verb (by simpa [Option.isSome_iff_ne_none] using hsome) hspelled] at hk
    exact absurd hk (by decide)
  -- The governing token is the last one when nothing follows it.
  have hbare : s.operands = [] → s.verb?.bind bareOpener? = none := by
    intro hoperands
    cases hgoverned : governed s.tokens with
    | nil => simp [verb?, governingVerb?, governing?, hgoverned]
    | cons v rest =>
      obtain rfl : rest = [] := (operands_of_governed hgoverned).symm.trans hoperands
      have hsuffix : [v] <:+ s.significant := hgoverned ▸ splitLabel_suffix s.significant
      have hlast : s.significant.getLast? = some u := by
        rw [significant, hs, Token.significant, List.filter_append,
          List.filter_cons_of_pos (by simp [hcomment])]
        simp
      obtain ⟨front, hfront⟩ := hsuffix
      obtain rfl : v = u := by simpa [← hfront] using hlast
      rw [verb?_of_governed hgoverned, hverb]
      rfl
  have hall : ∀ w ∈ ["ATOMIC", "BEGIN", "THEN", "DO"], isReserved w = true := by decide
  rw [opener?_of_last hs hcomment, openerAt?_other fun w hw => hspells w (hall w hw)]
  split
  · exact hbare (List.isEmpty_iff.mp ‹_›)
  · rfl

/-- A semicolon ends a statement whose last token is no word. -/
theorem isTerminated_of_last {before : List Token} (hs : s.tokens = before ++ [u])
    (hread : u.IsRead) (hcomment : u.isComment = false) (hk : u.kind.isBareWord = false) :
    s.isTerminated = true := by
  have hmem : u ∈ s.significant := List.mem_filter.mpr ⟨by simp [hs], by simp [hcomment]⟩
  exact isTerminated_iff.mpr
    ⟨List.ne_nil_of_mem hmem, opener?_eq_none_of_last hs hread hcomment hk⟩

end Statement

/-! ### The last token -/

/-- The last token of a sequence is the last one of its nodes, unless it is a parenthesis. -/
theorem Nesting.exists_addAll_concat {n : Nesting} {ts : List Token} {u : Token} {ns : List Node}
    (hu : u.kind.mark? = none) (h : n.addAll (ts ++ [u]) = .ok ns) : ∃ ms, ns = ms ++ [.leaf u] := by
  induction ts generalizing n with
  | nil =>
    have hadd : n.add u = .ok { n with level := n.level ++ [.leaf u] } := by
      cases hk : u.kind <;> simp_all [add, Kind.mark?]
    rw [List.nil_append, addAll, hadd] at h
    simp only [addAll, finish] at h
    split at h
    · exact ⟨n.level, (Except.ok.inj h).symm⟩
    · contradiction
  | cons t ts ih =>
    rw [List.cons_append, addAll] at h
    split at h
    · exact ih h
    · contradiction

namespace Draft

/-- A literal and a delimited name are put at the end of the last line. -/
theorem Shows.exists_addToken_eq_put {d : Draft} {t : Token} (hd : d.Shows T) (s : Spacing)
    (f : Frame) (position : Nat) (joined : Bool) (ht : t.kind = .string ∨ t.kind = .delimited) :
    ∃ e : Draft, e.Shows T ∧ d.addToken s f position joined t = e.put (.cased t) := by
  have hne : t.kind ≠ .comma ∧ t.kind ≠ .comment ∧ t.kind.isKeyword = false ∧
      t.kind.mark? = none := by
    rcases ht with hk | hk <;> simp [hk, Kind.isKeyword, Kind.mark?]
  obtain ⟨hcomma, hcomment, hkeyword, hmark⟩ := hne
  obtain ⟨e, p, hspaces, hp, hadd⟩ := d.exists_addToken_eq_put s f position joined hkeyword hcomma
    (Token.isLineComment_of_ne_comment hcomment)
  cases hp with
  | verbatim hk => exact absurd hk (by simp [hmark, hcomment])
  | cased => exact ⟨e, hd.spaces hspaces, hadd⟩

/-- A line that is not blank stays at the end. -/
theorem dropBlankEnd_concat {ls : List Line} {l : Line} (h : l.isBlank = false) :
    Line.dropBlankEnd (ls ++ [l]) = ls ++ [l] := by
  cases ls with
  | nil => rfl
  | cons m ls => simp [Line.dropBlankEnd, h]

/-- What is put last is at the end of the last line. -/
theorem finish_put (d : Draft) {p : Piece} (hp : Text.isBlank p.source = false) :
    (d.put p).finish = d.above ++ [d.current ++ [p]] :=
  dropBlankEnd_concat (isBlank_current_put hp)

end Draft

/-! ### Settled lines -/

/-- Whether all tokens of the line are whole, or a semicolon stands at its end behind one that is
    not. -/
def Line.IsSettled (l : Line) : Prop :=
  l.Shows (fun u => u.isWhole = true) ∨ ∃ before u, l = before ++ [.cased u, .terminator]

/-- An indentation leaves a line settled. -/
theorem Line.IsSettled.indented_append {l : Line} (h : l.IsSettled) (width : Int) :
    (indented width ++ l).IsSettled := by
  rcases h with h | ⟨before, u, rfl⟩
  · exact .inl (shows_indented_append.mpr h)
  · exact .inr ⟨indented width ++ before, u, (List.append_assoc ..).symm⟩

/-- A literal or a delimited name that is the last token is put behind all others. -/
theorem Node.exists_layOut_eq {sp : Spacing} {ms : List Node} {u : Token} {own : List Line}
    (hkind : u.kind = .string ∨ u.kind = .delimited) (hblank : Text.isBlank u.text = false)
    (hms : ∀ t ∈ allTokens ms, T t) (h : layOut sp (ms ++ [.leaf u]) = .ok own) :
    ∃ d : Draft, d.Shows T ∧ own = d.above ++ [d.current ++ [.cased u]] := by
  obtain ⟨joined, happend⟩ := Draft.exists_addNodes_append sp
    (Frame.ofNodes (ms ++ [.leaf u])) 0 false .start ms [.leaf u]
  have hfront := (Draft.isInvariant_shows T).addNodes sp (Frame.ofNodes (ms ++ [.leaf u])) 0 false
    .start Draft.shows_start ms hms
  obtain ⟨d, hd, hput⟩ := hfront.exists_addToken_eq_put sp (Frame.ofNodes (ms ++ [.leaf u]))
    (0 + ms.length) joined hkind
  have hdraft : draft sp (ms ++ [.leaf u]) = d.put (.cased u) := by
    rw [draft, happend, Draft.addNodes, Draft.addNodes, Draft.addNode, hput]
  have hfinish : (d.put (.cased u)).finish = d.above ++ [d.current ++ [.cased u]] :=
    Draft.finish_put d hblank
  refine ⟨d, hd, ?_⟩
  unfold layOut at h
  split at h
  · contradiction
  · rw [hdraft, hfinish] at h
    exact (Except.ok.inj h).symm

/-- Where nothing comes behind a token that is not whole, all tokens are whole, or all but the last
    one. -/
theorem Token.isWhole_or_concat {ts : List Token}
    (hlast : ∀ before u after, ts = before ++ u :: after → u.isWhole = false → after = []) :
    (∀ u ∈ ts, u.isWhole = true) ∨
      ∃ before u, ts = before ++ [u] ∧ u.isWhole = false ∧ ∀ t ∈ before, t.isWhole = true := by
  rcases List.eq_nil_or_concat ts with rfl | ⟨before, u, rfl⟩
  · exact .inl (by simp)
  rw [List.concat_eq_append] at hlast ⊢
  have hbefore : ∀ t ∈ before, t.isWhole = true := by
    intro t ht
    by_contra hopen
    obtain ⟨front, back, rfl⟩ := List.append_of_mem ht
    have hnil := hlast front t (back ++ [u]) (by simp) (by simpa using hopen)
    exact absurd hnil (by simp)
  cases hu : u.isWhole with
  | true => exact .inl (List.forall_mem_append.mpr ⟨hbefore, by simp [hu]⟩)
  | false => exact .inr ⟨before, u, rfl, hu, hbefore⟩

/-- The lines of a statement are settled when no token but its last one is open. -/
theorem Statement.isSettled_layOut {sp : Spacing} {s : Statement} {ls : List Line}
    (hparens : ∀ t ∈ s.tokens, t.IsParenPlaced) (hread : ∀ t ∈ s.tokens, t.IsRead)
    (hlast : ∀ before u after, s.tokens = before ++ u :: after → u.isWhole = false → after = [])
    (h : s.layOut sp = .ok ls) : ∀ l ∈ ls, l.IsSettled := by
  rcases Token.isWhole_or_concat hlast with hall | ⟨before, u, hs, hopen, hbefore⟩
  · exact fun l hl => .inl (shows_layOut hparens hall h l hl)
  have hkind := Token.kind_of_isWhole_eq_false hopen
  have hu : u.IsRead := hread u (by simp [hs])
  have hterminated : s.isTerminated = true :=
    isTerminated_of_last hs hu (Token.isWhole_eq_false_iff.mp hopen).1
      (by rcases hkind with hk | hk <;> rw [hk] <;> rfl)
  have hblank : Text.isBlank u.text = false := hu.elim fun _ hread => hread.not_isBlank
  obtain ⟨ns, own, hns, hown, rfl⟩ := layOut_eq_ok h
  have htokens := Node.allTokens_ofTokens hparens hns
  rw [hs] at hns htokens
  obtain ⟨ms, rfl⟩ := Nesting.exists_addAll_concat
    (by rcases hkind with hk | hk <;> rw [hk] <;> rfl) hns
  have hms : Node.allTokens ms = before := by
    rw [Node.allTokens_append, Node.allTokens_leaf] at htokens
    exact List.append_cancel_right htokens
  -- The token is put behind whole ones, and the semicolon behind the token.
  obtain ⟨d, hd, rfl⟩ := Node.exists_layOut_eq hkind hblank (by rwa [hms]) hown
  have hsignificant : s.significant.isEmpty = false := by
    simpa using (isTerminated_iff.mp hterminated).1
  have hterminator : terminated (d.above ++ [d.current ++ [.cased u]])
      = d.above ++ [d.current ++ [.cased u, .terminator]] := by
    simp [terminated]
  rw [hsignificant, hterminated, if_neg (by decide), if_pos rfl, hterminator]
  intro l hl
  rcases List.mem_append.mp hl with hl | hl
  · exact .inl ((Draft.shows_iff.mp hd).1 l hl)
  · exact .inr ⟨d.current, u, List.mem_singleton.mp hl⟩

/-- The lines of a script are settled. -/
theorem Script.isSettled_layOut {style : Style} {t : Text} {ls : List Line}
    (h : (ofText t).layOut style = .ok ls) : ∀ l ∈ ls, l.IsSettled := by
  refine Style.forall_mem_layOut (.inl fun p hp => absurd hp (by simp))
    (fun width _ hl => hl.indented_append width) (fun p hp own hown => ?_) h
  have hscan : ∀ u ∈ p.1.tokens, u ∈ Token.scan t := fun u hu => mem_scan_of_mem_indentations hp hu
  refine Statement.isSettled_layOut (fun u hu => Token.isParenPlaced_of_mem_scan (hscan u hu))
    (fun u hu => Token.isRead_of_mem_scan (hscan u hu)) (fun before u after hsplit hopen => ?_) hown
  have hs : p.1 ∈ Statement.ofTokens (Token.scan t) := by
    show p.1 ∈ (ofText t).statements
    rw [← map_fst_indentations style.spacing.indentWidth t]
    exact List.mem_map_of_mem hp
  exact Token.eq_nil_of_isOpen_of_sublist (hsplit ▸ Statement.tokens_sublist hs)
    (Token.isWhole_eq_false_iff.mp hopen).2

end SqlScript
