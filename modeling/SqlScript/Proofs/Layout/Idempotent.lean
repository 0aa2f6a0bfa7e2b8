import SqlScript.Proofs.Layout.Comment
import SqlScript.Proofs.Layout.Essence
import SqlScript.Proofs.Layout.Place
import SqlScript.Proofs.Layout.Written
import SqlScript.Proofs.Token.Tiling

namespace SqlScript

/-!
# Formatting twice

A script that was formatted is formatted to itself, as long as it is read as it was meant: its words
are read as words of the same kind in the cases that were chosen for them, no tokens fuse, and its
statements are read back, which has to do with the semicolons that are written behind them.

* `Token.restyled` — a token as it is read from the formatted script;
* `Script.forall_piece` — a property of tokens that holds in the lines of a script;
* `Script.write_lineBreak_write` — a formatted script has the line breaks of the script;
* `Style.format_format` — the formatted script stays as it is.
-/

open Token (Faithful)

/-! ### Chosen cases -/

/-- A text that is in the chosen case stays as it is. -/
theorem LetterCase.apply_apply (l : LetterCase) (t : Text) : l.apply (l.apply t) = l.apply t := by
  cases l with
  | preserve => rfl
  | upper => exact Unicode.upper_upper t
  | lower => exact Unicode.lower_lower t

/-- A token that was written in the chosen case stays as it is. -/
theorem Casing.apply_trimmed (c : Casing) (t : Token) :
    c.apply (.ofLexeme (t.shownAs c).trimmed) = (t.shownAs c).trimmed.text := by
  cases hl : (t.shownAs c).isLineComment with
  | true =>
    obtain ⟨v, hv⟩ := Lexeme.exists_of_isLineComment hl
    exact c.apply_of_comment (by rw [Token.ofLexeme, Lexeme.kind_trimmed, hv])
  | false =>
    rw [Lexeme.trimmed_of_not_isLineComment hl]
    show c.apply ⟨t.kind, c.apply t, 0, 0⟩ = c.apply t
    unfold Casing.apply
    simp only
    split
    · rfl
    · split <;> exact LetterCase.apply_apply _ _

namespace Token

/-- The token as it is read from a script in which it was written in the chosen case. A token that
    would not be read as one of its kind is left as it is. -/
def restyled (c : Casing) (t : Token) : Token :=
  .ofLexeme (if t.lexeme.Proper ∧ (t.shownAs c).Proper then (t.shownAs c).trimmed else t.lexeme)

/-- A token that is read as one of its kind in either case is put in the chosen one. -/
theorem restyled_of_proper {c : Casing} {t : Token} (h : t.lexeme.Proper)
    (h' : (t.shownAs c).Proper) : t.restyled c = .ofLexeme (t.shownAs c).trimmed := by
  rw [restyled, if_pos ⟨h, h'⟩]

/-- A token in the chosen case is one of some letter case. -/
theorem exists_apply_eq (c : Casing) (t : Token) : ∃ l : LetterCase, c.apply t = l.apply t.text := by
  unfold Casing.apply
  split
  · exact ⟨.preserve, rfl⟩
  · split
    · exact ⟨_, rfl⟩
    · exact ⟨_, rfl⟩

/-- A token that is read in the chosen case spells the same words of the language. -/
theorem spells_ofLexeme_trimmed {c : Casing} {t : Token} (h : t.lexeme.Proper)
    (h' : (t.shownAs c).Proper) {w : String} (hw : isGuide w = true) :
    (ofLexeme (t.shownAs c).trimmed).spells w = t.spells w := by
  cases hl : (t.shownAs c).isLineComment with
  | true =>
    -- A comment spells no word.
    have hk : t.kind = .comment := by
      obtain ⟨v, hv⟩ := Lexeme.exists_of_isLineComment hl
      exact congrArg Lexeme.kind hv
    have hopen : (t.shownAs c).isOpen = false := by
      simp [Lexeme.isOpen, shownAs, hk, show Lexeme.isLineComment ⟨.comment, c.apply t⟩ = true by
        rwa [shownAs, hk] at hl]
    have hread : (ofLexeme (t.shownAs c).trimmed).IsRead :=
      ⟨[], h'.trimmed_readBefore hopen (by simp)⟩
    have hkind : (ofLexeme (t.shownAs c).trimmed).kind.isBareWord = false := by
      rw [ofLexeme, Lexeme.kind_trimmed, shownAs, hk]
      rfl
    rw [hread.spells_eq_false_of_kind hkind (isReserved_of_isGuide hw),
      IsRead.spells_eq_false_of_kind ⟨[], h⟩ (by rw [hk]; rfl) (isReserved_of_isGuide hw)]
  | false =>
    obtain ⟨l, happly⟩ := exists_apply_eq c t
    have hread : (ofLexeme (t.shownAs c)).IsRead := ⟨[], h'⟩
    rw [Lexeme.trimmed_of_not_isLineComment hl]
    exact spells_eq_of_apply ⟨[], h⟩ hread rfl happly hw

/-- A token as it is read from a formatted script is laid out as before. -/
theorem faithful_restyled (c : Casing) : Faithful (restyled c) where
  kind t := by
    unfold restyled
    split
    · exact Lexeme.kind_trimmed _
    · rfl
  spells t w hw := by
    unfold restyled
    split
    · rename_i h
      exact spells_ofLexeme_trimmed h.1 h.2 hw
    · rfl
  isLineComment t := by
    unfold restyled
    split
    · exact ((t.shownAs c).isLineComment_trimmed).trans (t.isLineComment_shownAs c)
    · rfl
  recased t ht := by
    unfold restyled
    split
    · rw [Lexeme.trimmed_of_not_isLineComment (by rw [isLineComment_shownAs, ht])]
      exact c.recased t
    · exact Recased.refl _
  span _ := rfl

end Token

/-! ### Pieces of a script -/

/-- A mark is closed. -/
theorem Token.isClosed_placed (c : Casing) {k : Kind} {m : Char} (hk : k.mark? = some m)
    (start : Int) : (placed k [m] start).IsClosed c := by
  have happly := c.apply_of_mark? (isMarked_placed hk start) hk
  rw [IsClosed, shownAs_of_apply happly]
  exact Piece.isClosed_of_mark? (c := c) (p := .verbatim (placed k [m] start)) hk rfl _ rfl

/-- What holds of spaces, of parentheses and terminators, and of the tokens of a script holds of all
    pieces in the lines of the script. -/
theorem Script.forall_piece {c : Casing} {P : Piece → Bool} (hpad : ∀ width, P (.pad width) = true)
    (hverbatim : ∀ t : Token, c.apply t = t.text → P (.verbatim t) = P (.cased t))
    (hmark : ∀ {k : Kind} {m : Char}, k.mark? = some m → ∀ start,
      P (.cased (.placed k [m] start)) = true)
    (hopen : P .openParen = true) (hclose : P .closeParen = true)
    (hterminator : P .terminator = true) {style : Style} {t : Text} {ls : List Line}
    (htokens : ∀ u ∈ Token.scan t, P (.cased u) = true)
    (hclosed : ∀ u ∈ Token.scan t, u.IsClosed c) (h : (ofText t).layOut style = .ok ls) :
    ∀ l ∈ ls, ∀ p ∈ l, P p = true := by
  have hgathered := isBlank_or_of_layOut
    (fun u hu hk => hverbatim u <| hk.elim
      (fun hk => (Option.isSome_iff_exists.mp hk).elim fun _ => c.apply_of_mark? hu)
      c.apply_of_comment)
    (fun span => (hmark rfl _).trans hopen.symm) (fun span => (hmark rfl _).trans hclose.symm)
    hterminator htokens h
  have hpieces := (Script.linked_layOut isSeam_bounded hclosed h).1
  intro l hl p hp
  -- Only spaces are blank, as the other pieces show a lexeme.
  cases hx : p.lexeme? c with
  | none =>
    cases p with
    | pad width => exact hpad width
    | _ => exact absurd hx (by simp [Piece.lexeme?])
  | some x =>
    have hblank : Text.isBlank p.source = false := by
      rw [← (p.recased c).isBlank]
      exact (hpieces l hl p hp).shown_not_isBlank hx
    exact (hgathered l hl p hp).resolve_left (by rw [hblank]; decide)

/-! ### What lines show -/

/-- Trimming the second one of two texts changes nothing when both are trimmed. -/
theorem Text.trimEnd_append_trimEnd (t u : Text) : trimEnd (t ++ trimEnd u) = trimEnd (t ++ u) := by
  obtain ⟨g, hg, hu⟩ := exists_trimEnd_append u
  conv_rhs => rw [hu, ← List.append_assoc, trimEnd_append_of_isBlank _ hg]

/-- The text of a piece at the end of a line. -/
def Piece.trimmed (c : Casing) (p : Piece) : Text :=
  (p.lexeme? c).elim (p.shown c) fun x => x.trimmed.text

/-- At the end of a line only a `--` comment loses anything. -/
theorem Piece.trimmed_of_not_isLineComment {c : Casing} {p : Piece}
    (h : p.isLineComment c = false) : p.trimmed c = p.shown c := by
  unfold trimmed
  cases hx : p.lexeme? c with
  | none => rfl
  | some x =>
    rw [isLineComment, hx, Option.any_some] at h
    rw [Option.elim_some, Lexeme.trimmed_of_not_isLineComment h, shown_of_lexeme? hx]

/-- At the end of a line a piece loses nothing but blanks. -/
theorem Piece.trimEnd_append_trimmed (c : Casing) (t : Text) (p : Piece) :
    Text.trimEnd (t ++ p.trimmed c) = Text.trimEnd (t ++ p.shown c) := by
  unfold trimmed
  cases hx : p.lexeme? c with
  | none => rfl
  | some x =>
    rw [Option.elim_some, shown_of_lexeme? hx, Lexeme.trimmed]
    split
    · exact Text.trimEnd_append_trimEnd t x.text
    · rfl

/-- The pieces of a script are written as their tokens are, in a script that was formatted before. -/
theorem Script.shown_map_restyled {c : Casing} {style : Style} {t : Text} {ls : List Line}
    (hclosed : ∀ u ∈ Token.scan t, u.IsClosed c) (h : (ofText t).layOut style = .ok ls) :
    ∀ l ∈ ls, ∀ p ∈ l, (p.map (Token.restyled c)).shown c = p.trimmed c := by
  have hcased : ∀ u : Token, u.IsClosed c → u.lexeme.Proper →
      (((Piece.cased u).map (Token.restyled c)).shown c == (Piece.cased u).trimmed c) = true :=
    fun u hu hproper => by
      show (c.apply (u.restyled c) == (u.shownAs c).trimmed.text) = true
      rw [Token.restyled_of_proper hproper hu.1, c.apply_trimmed, beq_self_eq_true]
  have hall := forall_piece (c := c)
    (P := fun p => (p.map (Token.restyled c)).shown c == p.trimmed c)
    (fun width => by simp [Piece.map, Piece.trimmed, Piece.lexeme?])
    (fun u hu => ?_)
    (fun hk start => hcased _ (Token.isClosed_placed c hk start) (Piece.proper_of_mark? hk))
    (beq_self_eq_true ['(']) (beq_self_eq_true [')']) (beq_self_eq_true [';'])
    (fun u hu => hcased u (hclosed u hu) (Token.proper_of_mem_scan hu)) hclosed h
  · exact fun l hl p hp => by simpa using hall l hl p hp
  · -- What has no case is written as it is, before and after.
    have hlexeme : (Piece.verbatim u).trimmed c = (Piece.cased u).trimmed c := by
      simp only [Piece.trimmed, Piece.lexeme?, Token.shownAs_of_apply hu]
      simp only [Option.elim_some]
    have hshown : ((Piece.verbatim u).map (Token.restyled c)).shown c
        = ((Piece.cased u).map (Token.restyled c)).shown c := by
      show (u.restyled c).text = c.apply (u.restyled c)
      unfold Token.restyled
      split
      · exact (c.apply_trimmed u).symm
      · exact hu.symm
    simp only [hlexeme, hshown]

/-- A line is written as its tokens are, in a script that was formatted before. -/
theorem Line.trimEnd_mapTokens {c : Casing} {f : Token → Token} {l : Line} (hends : l.EndsComments)
    (hl : ∀ p ∈ l, (p.map f).shown c = p.trimmed c) :
    Text.trimEnd (shown c (mapTokens f l)) = Text.trimEnd (shown c l) := by
  rcases List.eq_nil_or_concat' l with rfl | ⟨before, p, rfl⟩
  · rfl
  · -- Only the last piece can be a comment whose blanks are trimmed.
    rw [EndsComments, List.dropLast_concat] at hends
    have hbefore : shown c (mapTokens f before) = shown c before := shown_mapTokens fun q hq => by
      rw [hl q (by simp [hq]),
        Piece.trimmed_of_not_isLineComment (Piece.isLineComment_eq_false_iff.mpr (hends q hq))]
    have hlast : ∀ q : Piece, shown c [q] = q.shown c := fun q => List.append_nil _
    rw [mapTokens_append, shown_append, shown_append, hbefore, hlast]
    show Text.trimEnd (shown c before ++ shown c [p.map f]) = _
    rw [hlast, hl p (by simp), Piece.trimEnd_append_trimmed]

/-! ### Line breaks -/

open Text (Apart)

/-- A line has no line breaks of two characters when its pieces have none and start with no line
    feed. -/
theorem Line.isChain_shown {c : Casing} {l : Line}
    (h : ∀ p ∈ l, (p.shown c).IsChain Apart ∧ (p.shown c).head? ≠ some '\n') :
    (shown c l).IsChain Apart ∧ (shown c l).head? ≠ some '\n' := by
  induction l with
  | nil => exact ⟨List.isChain_nil, by simp [shown]⟩
  | cons p l ih =>
    obtain ⟨hp, hhead⟩ := h p (by simp)
    obtain ⟨hl, hrest⟩ := ih fun q hq => h q (by simp [hq])
    rw [shown_cons, List.isChain_append, List.head?_append]
    refine ⟨⟨hp, hl, fun d _ e he => Text.apart_of_ne_feed ?_⟩, ?_⟩
    · rintro rfl
      exact hrest he
    · cases hs : (p.shown c).head? with
      | none => simpa using hrest
      | some d => rwa [hs] at hhead

/-- The lines of a script have no line breaks of two characters when the script has none. -/
theorem Script.isChain_shown {c : Casing} {style : Style} {t : Text} {ls : List Line}
    (ht : t.IsChain Apart) (hclosed : ∀ u ∈ Token.scan t, u.IsClosed c)
    (h : (ofText t).layOut style = .ok ls) : ∀ l ∈ ls, (l.shown c).IsChain Apart := by
  have hcased : ∀ u : Token, u.IsClosed c → u.text.IsChain Apart →
      (!Text.hasPart Text.carriageReturnLineFeed (c.apply u) && (c.apply u).head? != some '\n')
        = true := fun u hu htext => by
    rw [(Text.hasPart_eq_false_iff _).mpr (Text.isChain_recased (c.recased u) htext)]
    simp only [Bool.not_false, Bool.true_and, bne_iff_ne, ne_eq]
    exact fun hhead => Text.ne_feed_of_not_isBlank (hu.1.not_isBlank_of_mem_head? _ hhead) rfl
  have hall := forall_piece (c := c)
    (P := fun p => !Text.hasPart Text.carriageReturnLineFeed (p.shown c)
      && (p.shown c).head? != some '\n')
    (fun width => ?_) (fun u hu => ?_)
    (fun {k m} hk start => hcased _ (Token.isClosed_placed c hk start) (List.isChain_singleton m))
    rfl rfl rfl (fun u hu => ?_) hclosed h
  · refine fun l hl => (Line.isChain_shown fun p hp => ?_).1
    have := hall l hl p hp
    simp only [Bool.and_eq_true, Bool.not_eq_true', bne_iff_ne] at this
    exact ⟨(Text.hasPart_eq_false_iff _).mp this.1, this.2⟩
  · -- Spaces are no line breaks.
    have hspace : ∀ d ∈ (Piece.pad width).shown c, d = ' ' := fun d hd => List.eq_of_mem_replicate hd
    have hchain : ((Piece.pad width).shown c).IsChain Apart :=
      Text.isChain_of_ne_return fun d hd => by
        rw [hspace d hd]
        decide
    rw [(Text.hasPart_eq_false_iff _).mpr hchain]
    simp only [Bool.not_false, Bool.true_and, bne_iff_ne, ne_eq]
    exact fun hhead => absurd (hspace _ (List.mem_of_mem_head? hhead)) (by decide)
  · have hshown : (Piece.verbatim u).shown c = (Piece.cased u).shown c := hu.symm
    rw [hshown]
  · refine hcased u (hclosed u hu) ?_
    rw [(Token.cover_scan t).text_eq_slice u hu]
    exact (ht.drop _).take _

/-- Lines that are joined by line feeds have no other line breaks than before. -/
theorem Script.isChain_write {c : Casing} {ls : List Line}
    (h : ∀ l ∈ ls, (l.shown c).IsChain Apart) : (write c Text.lineFeed ls).IsChain Apart := by
  induction ls with
  | nil => exact List.isChain_nil
  | cons l ls ih =>
    have hfirst := Text.isChain_trimEnd (h l (by simp))
    have hrest := ih fun m hm => h m (by simp [hm])
    cases ls with
    | nil => rwa [write_singleton]
    | cons m ls =>
      rw [write_cons_cons, List.isChain_append]
      refine ⟨hfirst, ?_, fun d hd e _ => ?_⟩
      · exact List.isChain_cons.mpr ⟨fun e _ => Text.apart_of_ne_return (by decide), hrest⟩
      · exact Text.apart_of_ne_return
          (Text.ne_return_of_not_isBlank (Text.not_isBlank_of_mem_getLast?_trimEnd d hd))

/-- A formatted script has the line breaks of the script, so that its lines are joined as before. -/
theorem Script.write_lineBreak_write {c : Casing} {style : Style} {t : Text} {ls : List Line}
    (hclosed : ∀ u ∈ Token.scan t, u.IsClosed c) (h : (ofText t).layOut style = .ok ls) :
    write c (Text.lineBreak (write c (Text.lineBreak t) ls)) ls = write c (Text.lineBreak t) ls := by
  rcases ls with _ | ⟨l, _ | ⟨m, ls⟩⟩
  · rfl
  · rw [write_singleton, write_singleton]
  · refine congrArg (write c · _) ?_
    cases ht : Text.hasPart Text.carriageReturnLineFeed t with
    | true =>
      have hbreak : Text.lineBreak t = Text.carriageReturnLineFeed := if_pos ht
      rw [hbreak, write_cons_cons]
      exact if_pos (Text.hasPart_append_left _ (Text.hasPart_of_prefix _ _))
    | false =>
      have hbreak : Text.lineBreak t = Text.lineFeed := if_neg (by rw [ht]; decide)
      have hlines := isChain_shown ((Text.hasPart_eq_false_iff t).mp ht) hclosed h
      rw [hbreak, Text.lineBreak, (Text.hasPart_eq_false_iff _).mpr (isChain_write hlines)]
      rfl

/-! ### Scripts that are read back -/

/-- A lexeme that was trimmed is closed. -/
theorem Lexeme.isOpen_trimmed {x : Lexeme} (h : x.isOpen = false) : x.trimmed.isOpen = false := by
  cases hl : x.isLineComment with
  | true =>
    obtain ⟨v, rfl⟩ := exists_of_isLineComment hl
    rw [trimmed_dashes]
    exact isOpen_dashes _
  | false => rwa [trimmed_of_not_isLineComment hl]

/-- The semicolon that ends a statement is written in all cases alike. -/
theorem Token.restyled_semicolon (c : Casing) :
    Token.restyled c (.placed .semicolon [';'] 0)
      = Token.ofLexeme (Lexeme.trimmed ⟨.semicolon, [';']⟩) := by
  have hmark : Kind.mark? .semicolon = some ';' := rfl
  have happly := c.apply_of_mark? (isMarked_placed hmark 0) hmark
  have hproper : (Token.placed .semicolon [';'] 0).lexeme.Proper := Piece.proper_of_mark? hmark
  rw [Token.restyled_of_proper hproper (Token.isClosed_placed _ hmark 0).1,
    Token.shownAs_of_apply happly]
  rfl

/-- What is gathered of a statement is what is written of it, where its tokens are proper in the
    cases that are there and in those in which they are shown. -/
theorem Statement.map_lexemes_ofStatement {c : Casing} (s : Statement)
    (hproper : ∀ u ∈ s.tokens, u.lexeme.Proper ∧ (u.shownAs c).Proper) :
    ((Gathering.lexemes c).ofStatement s).map (fun x => Token.ofLexeme x.trimmed)
      = s.written.map (Token.restyled c) := by
  have htokens : (s.tokens.map (Token.shownAs c)).map (fun x => Token.ofLexeme x.trimmed)
      = s.tokens.map (Token.restyled c) := by
    rw [List.map_map]
    exact List.map_congr_left fun u hu =>
      (Token.restyled_of_proper (hproper u hu).1 (hproper u hu).2).symm
  rw [Gathering.ofStatement, Gathering.lexemes_ofTokens fun u hu => (hproper u hu).1,
    List.map_append, htokens, Statement.written, List.map_append]
  split
  · exact congrArg (_ ++ [·]) (Token.restyled_semicolon c).symm
  · rfl

namespace Script

variable {style : Style} {t r : Text}

/-- The tokens of a formatted script, in which no tokens fuse, are those of its statements. -/
theorem map_scan_write {ls : List Line} (hclosed : ∀ u ∈ Token.scan t, u.IsClosed style.casing)
    (hapart : ∀ s ∈ (ofText t).statements, s.IsApart style.casing)
    (h : (ofText t).layOut style = .ok ls) :
    (Token.scan (write style.casing (Text.lineBreak t) ls)).map .unplaced
      = ((ofText t).statements.flatMap Statement.written).map (Token.restyled style.casing) := by
  obtain ⟨hpieces, hbounded, hadmits⟩ := linked_admits_iff hclosed h
  have hlexemes := lexemes_write t hpieces hbounded (hadmits.mpr hapart)
  calc (Token.scan (write style.casing (Text.lineBreak t) ls)).map .unplaced
      = (Text.lexemes (write style.casing (Text.lineBreak t) ls)).map .ofLexeme := by
        rw [Text.lexemes, List.map_map]
        rfl
    _ = ((ofText t).statements.flatMap (Gathering.lexemes style.casing).ofStatement).map
          fun x => Token.ofLexeme x.trimmed := by
        rw [hlexemes, List.map_map, ← Gathering.lexemes_ofLines hpieces, Gathering.script_layOut _ h]
        rfl
    _ = ((ofText t).statements.flatMap Statement.written).map (Token.restyled style.casing) := by
        rw [List.map_flatMap, List.map_flatMap]
        refine List.flatMap_congr fun s hs => s.map_lexemes_ofStatement fun u hu => ?_
        have hmem := Statement.mem_of_mem_tokens hs hu
        exact ⟨Token.proper_of_mem_scan hmem, (hclosed u hmem).1⟩

/-- The tokens of a formatted script are closed in the cases in which it is written. -/
theorem isClosed_of_mem_scan_write {ls : List Line}
    (hclosed : ∀ u ∈ Token.scan t, u.IsClosed style.casing)
    (hapart : ∀ s ∈ (ofText t).statements, s.IsApart style.casing)
    (h : (ofText t).layOut style = .ok ls) :
    ∀ v ∈ Token.scan (write style.casing (Text.lineBreak t) ls), v.IsClosed style.casing := by
  intro v hv
  have hmem : Token.ofLexeme v.lexeme
      ∈ ((ofText t).statements.flatMap Statement.written).map (Token.restyled style.casing) := by
    rw [← map_scan_write hclosed hapart h]
    exact List.mem_map_of_mem hv
  obtain ⟨w, hw, hvw⟩ := List.mem_map.mp hmem
  have hwritten : w.lexeme.Proper ∧ w.IsClosed style.casing := by
    obtain ⟨s, hs, hw⟩ := List.mem_flatMap.mp hw
    rcases List.mem_append.mp hw with hw | hw
    · have hscan := Statement.mem_of_mem_tokens hs hw
      exact ⟨Token.proper_of_mem_scan hscan, hclosed w hscan⟩
    · split at hw
      · obtain rfl := List.mem_singleton.mp hw
        exact ⟨Piece.proper_of_mark? rfl, Token.isClosed_placed _ rfl 0⟩
      · exact absurd hw (by simp)
  rw [Token.restyled_of_proper hwritten.1 hwritten.2.1] at hvw
  have hlexeme : v.lexeme = (w.shownAs style.casing).trimmed := (Token.ofLexeme_injective hvw).symm
  have happly : style.casing.apply v = v.text := by
    have := style.casing.apply_trimmed w
    rw [← hlexeme] at this
    exact this
  rw [Token.IsClosed, Token.shownAs_of_apply happly]
  exact ⟨Token.proper_of_mem_scan hv, hlexeme ▸ Lexeme.isOpen_trimmed hwritten.2.2⟩

/-- The statements of a formatted script are those of the script, when they are read back. -/
theorem indentations_write {ls : List Line}
    (hclosed : ∀ u ∈ Token.scan t, u.IsClosed style.casing)
    (hapart : ∀ s ∈ (ofText t).statements, s.IsApart style.casing)
    (hback : Statement.AreReadBack (ofText t).statements)
    (h : (ofText t).layOut style = .ok ls) (width : Nat) :
    ((ofText (write style.casing (Text.lineBreak t) ls)).indentations width).map
        (Prod.map (Statement.map .unplaced) id)
      = ((ofText t).indentations width).map
        (Prod.map (Statement.map (Token.restyled style.casing)) id) := by
  have hrestyled := Token.faithful_restyled style.casing
  have hstatements : (ofText (write style.casing (Text.lineBreak t) ls)).statements.map
        (Statement.map .unplaced)
      = (ofText t).statements.map (Statement.map (Token.restyled style.casing)) := by
    rw [← show Statement.ofTokens _ = (ofText t).statements from hback,
      ← Statement.ofTokens_map hrestyled.toAlike, ← map_scan_write hclosed hapart h]
    exact (Statement.ofTokens_map Token.faithful_ofLexeme.toAlike _).symm
  have hunplaced := Group.indentations_map Token.faithful_ofLexeme.toAlike width
    (ofText (write style.casing (Text.lineBreak t) ls)).statements
  have hmapped := Group.indentations_map hrestyled.toAlike width (ofText t).statements
  rw [hstatements] at hunplaced
  exact hunplaced.symm.trans hmapped

end Script

namespace Style

/-- What was formatted stays as it is when it is formatted again, as long as all tokens are read as
    tokens of the same kind in the cases that were chosen for them, no tokens of a statement fuse,
    and the statements, written one after the other, are read as these statements. They are, unless
    one of them runs into the next: `Script.areReadBack_iff` says exactly when, and that they are read
    back in scripts of the grammar is `IsScript.areReadBack`. -/
theorem format_format {style : Style} {t r : Text} (h : style.format t = .ok r)
    (hclosed : ∀ u ∈ Token.scan t, u.IsClosed style.casing)
    (hapart : ∀ s ∈ (Script.ofText t).statements, s.IsApart style.casing)
    (hback : Statement.AreReadBack (Script.ofText t).statements) : style.format r = .ok r := by
  obtain ⟨ls, hls, rfl⟩ := format_eq_ok h
  have hclosed' := Script.isClosed_of_mem_scan_write hclosed hapart hls
  have hscan : ∀ {u : Text} {width : Nat} {p : Statement × Int},
      p ∈ (Script.ofText u).indentations width → ∀ v ∈ p.1.tokens, v ∈ Token.scan u :=
    fun hp v hv => Script.mem_scan_of_mem_indentations hp hv
  -- Both scripts have the same lines, but for where their tokens stand and the cases of words.
  have hlines := layOut_map (c := style.casing) (Token.faithful_restyled style.casing) style none
    ((Script.ofText t).indentations style.spacing.indentWidth)
    (fun p hp v hv => Token.isMarked_of_mem_scan (hscan hp v hv))
    (fun p hp v hv => Token.isParenPlaced_of_mem_scan (hscan hp v hv))
    (fun p hp v hv => hclosed v (hscan hp v hv))
  have hlines' := layOut_map (c := style.casing) Token.faithful_ofLexeme style none
    ((Script.ofText (Script.write style.casing (Text.lineBreak t) ls)).indentations
      style.spacing.indentWidth)
    (fun p hp v hv => Token.isMarked_of_mem_scan (hscan hp v hv))
    (fun p hp v hv => Token.isParenPlaced_of_mem_scan (hscan hp v hv))
    (fun p hp v hv => hclosed' v (hscan hp v hv))
  rw [Option.map_none, ← Script.indentations_write hclosed hapart hback hls,
    show style.layOut none _ = .ok ls from hls] at hlines
  have hsame := hlines'.symm.trans hlines
  cases hls' : style.layOut none ((Script.ofText (Script.write style.casing (Text.lineBreak t)
      ls)).indentations style.spacing.indentWidth) with
  | error e =>
    rw [hls'] at hsame
    exact absurd hsame (by simp [Except.toOption])
  | ok ls' =>
    rw [hls'] at hsame
    have hmapped : ls'.map (Line.mapTokens fun v => .ofLexeme v.lexeme)
        = ls.map (Line.mapTokens (Token.restyled style.casing)) := Option.some.inj hsame
    have hshown : ls'.map (fun l => Text.trimEnd (l.shown style.casing))
        = ls.map fun l => Text.trimEnd (l.shown style.casing) := by
      have hends := endsComments_layOut
        (fun p hp v hv => Token.isParenPlaced_of_mem_scan (hscan hp v hv))
        (fun p hp v hv => Token.not_isBlank_of_mem_scan (hscan hp v hv)) hls
      have hpieces := Script.shown_map_restyled hclosed hls
      calc ls'.map (fun l => Text.trimEnd (l.shown style.casing))
          = (ls'.map (Line.mapTokens fun v => .ofLexeme v.lexeme)).map
              fun l => Text.trimEnd (l.shown style.casing) := by
            rw [List.map_map]
            exact List.map_congr_left fun l _ =>
              congrArg Text.trimEnd (Line.shown_mapTokens fun p _ => p.shown_unplaced _).symm
        _ = (ls.map (Line.mapTokens (Token.restyled style.casing))).map
              fun l => Text.trimEnd (l.shown style.casing) := by rw [hmapped]
        _ = ls.map fun l => Text.trimEnd (l.shown style.casing) := by
            rw [List.map_map]
            exact List.map_congr_left fun l hl => Line.trimEnd_mapTokens (hends l hl) (hpieces l hl)
    have hformat : style.format (Script.write style.casing (Text.lineBreak t) ls)
        = .ok (Script.write style.casing
            (Text.lineBreak (Script.write style.casing (Text.lineBreak t) ls)) ls') := by
      show Except.map _ (style.layOut none _) = _
      rw [hls']
      rfl
    have hwrite : ∀ eol, Script.write style.casing eol ls' = Script.write style.casing eol ls :=
      fun eol => congrArg (Text.join eol) hshown
    rw [hformat, hwrite, Script.write_lineBreak_write hclosed hls]

/-- A compound statement with keywords in upper case, and a comment behind it. -/
theorem format_format_compound :
    format ⟨⟨4, false⟩, ⟨.upper, .preserve⟩, false⟩ "begin set a.b = (:x, 1); end; -- c ".toList
        = .ok "BEGIN\n    SET a.b =(:x,1);\nEND;\n-- c".toList ∧
      (∀ u ∈ Token.scan "begin set a.b = (:x, 1); end; -- c ".toList,
        u.IsClosed ⟨.upper, .preserve⟩) ∧
      (∀ s ∈ (Script.ofText "begin set a.b = (:x, 1); end; -- c ".toList).statements,
        s.IsApart ⟨.upper, .preserve⟩) ∧
      Statement.AreReadBack (Script.ofText "begin set a.b = (:x, 1); end; -- c ".toList).statements ∧
      format ⟨⟨4, false⟩, ⟨.upper, .preserve⟩, false⟩
          "BEGIN\n    SET a.b =(:x,1);\nEND;\n-- c".toList
        = .ok "BEGIN\n    SET a.b =(:x,1);\nEND;\n-- c".toList :=
  have h : format ⟨⟨4, false⟩, ⟨.upper, .preserve⟩, false⟩
        "begin set a.b = (:x, 1); end; -- c ".toList
      = .ok "BEGIN\n    SET a.b =(:x,1);\nEND;\n-- c".toList := by decide +kernel
  have hclosed : ∀ u ∈ Token.scan "begin set a.b = (:x, 1); end; -- c ".toList,
      u.IsClosed ⟨.upper, .preserve⟩ := by decide +kernel
  have hapart : ∀ s ∈ (Script.ofText "begin set a.b = (:x, 1); end; -- c ".toList).statements,
      s.IsApart ⟨.upper, .preserve⟩ := by decide +kernel
  have hback : Statement.AreReadBack
      (Script.ofText "begin set a.b = (:x, 1); end; -- c ".toList).statements := by decide +kernel
  ⟨h, hclosed, hapart, hback, format_format h hclosed hapart hback⟩

/-- Where tokens fuse, formatting what was formatted gives another text. -/
theorem format_format_fused :
    plain.format "1 .a".toList = .ok "1.a;".toList ∧
      plain.format "1.a;".toList = .ok "1. a;".toList :=
  ⟨by decide +kernel, by decide +kernel⟩

end Style

end SqlScript
