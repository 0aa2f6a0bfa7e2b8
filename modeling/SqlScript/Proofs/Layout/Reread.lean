import SqlScript.Proofs.Layout.Glue

namespace SqlScript

open Unicode

/-!
# Reading what was written

The text of lines is read as the lexemes of the lines, exactly when each lexeme admits the character
that is right behind it.

* `Lexeme.trimmed` — a lexeme as it is written at the end of a line;
* `isSeam_admits` and `isSeam_bounded` — the relations that tell whether a lexeme is read as itself;
* `Line.lexemes` — the lexemes of a line;
* `Script.lexemes_write` — where all lexemes admit what is behind them, the lexemes of the lines are
  read;
* `Script.linked_of_unended_write` — and where they are read, all lexemes admit what is behind them,
  even if the semicolons that end statements are left out of account.
-/

/-! ### Comments at the end of a line -/

namespace Lexeme

/-- The lexeme without the blanks at the end of a comment that ends with its line. -/
def trimmed (x : Lexeme) : Lexeme := if x.isLineComment then ⟨x.kind, Text.trimEnd x.text⟩ else x

/-- Only a `--` comment is trimmed. -/
theorem trimmed_of_not_isLineComment {x : Lexeme} (h : x.isLineComment = false) :
    x.trimmed = x := by
  rw [trimmed, h, if_neg (by decide)]

/-- A trimmed lexeme is of the same kind. -/
@[simp] theorem kind_trimmed (x : Lexeme) : x.trimmed.kind = x.kind := by
  unfold trimmed
  split <;> rfl

/-- What is trimmed of a `--` comment is behind its dashes. -/
theorem trimmed_dashes (v : Text) :
    trimmed ⟨.comment, '-' :: '-' :: v⟩ = ⟨.comment, '-' :: '-' :: Text.trimEnd v⟩ := by
  have hdashes : ∀ c ∈ (['-', '-'] : Text).getLast?, isBlank c = false := by
    intro c hc
    obtain rfl : '-' = c := by simpa using hc
    decide
  have htrim : Text.trimEnd (['-', '-'] ++ v) = ['-', '-'] ++ Text.trimEnd v :=
    Text.trimEnd_append_of_getLast? hdashes v
  rw [trimmed, isLineComment_dashes, if_pos rfl]
  exact congrArg (mk .comment) htrim

/-- A trimmed comment is a `--` comment when it was one. -/
@[simp] theorem isLineComment_trimmed (x : Lexeme) :
    x.trimmed.isLineComment = x.isLineComment := by
  by_cases h : x.isLineComment = true
  · obtain ⟨v, rfl⟩ := exists_of_isLineComment h
    rw [trimmed_dashes, isLineComment_dashes, isLineComment_dashes]
  · rw [trimmed_of_not_isLineComment (by simpa using h)]

/-- What is trimmed has nothing more to trim. -/
@[simp] theorem trimmed_trimmed (x : Lexeme) : x.trimmed.trimmed = x.trimmed := by
  by_cases h : x.isLineComment = true
  · obtain ⟨v, rfl⟩ := exists_of_isLineComment h
    rw [trimmed_dashes, trimmed_dashes, Text.trimEnd_trimEnd]
  · rw [trimmed_of_not_isLineComment (by simpa using h),
      trimmed_of_not_isLineComment (by simpa using h)]

/-! ### What is admitted -/

/-- A closed lexeme admits a boundary, unless it is one that would be read as a part of it. -/
theorem admits_of_isBoundary {x : Lexeme} {d : Char} (ho : x.isOpen = false)
    (hl : x.isLineComment = false) (hd : isBoundary d = true) (hnumber : x.kind = .number → d ≠ '.')
    (hcolon : x.kind = .colon → d ≠ ':') : x.admits d = true := by
  have hne : ∀ e, isBoundary e = false → d ≠ e := fun e he => ne_of_apply_eq_true hd he
  have hquote := hne '\'' (by decide)
  have hdouble := hne '"' (by decide)
  have hgreater := hne '>' (by decide)
  have hdigit := not_isDecimalDigit_of_isBoundary hd
  unfold admits
  cases hk : x.kind <;> simp [hk, ho, hl, hd, hquote, hdouble, hgreater, hdigit] at hnumber hcolon ⊢
  · exact hcolon
  · exact .inr hnumber

/-- Whether the lexeme admits the character as soon as it is read in front of it. -/
def Bounded (x : Lexeme) (d : Char) : Prop :=
  x.isLineComment = false ∧ (isBoundary d = true ∨ x.kind.mark?.isSome = true)

end Lexeme

/-- In front of a mark stands what is no part of words, and no dot or colon. -/
theorem isBoundary_of_before_mark {d : Char} (h : " (),;".toList.contains d = true) :
    isBoundary d = true ∧ d ≠ '.' ∧ d ≠ ':' := by
  have hall : " (),;".toList.all (fun d => isBoundary d && d != '.' && d != ':') = true := by decide
  simpa [and_assoc] using List.all_eq_true.mp hall d (List.contains_iff_mem.mp h)

/-- Lexemes admit what the layout puts behind them in any case. -/
theorem isSeam_admits : IsSeam fun x d => x.admits d = true where
  after_mark h := by rcases h with h | h <;> simp [Lexeme.admits, h]
  before_mark ho hl h := by
    obtain ⟨hd, hdot, hcolon⟩ := isBoundary_of_before_mark h
    exact Lexeme.admits_of_isBoundary ho hl hd (fun _ => hdot) fun _ => hcolon
  before_dot ho hl h :=
    Lexeme.admits_of_isBoundary ho hl (by decide) (fun hk => absurd hk h) fun _ => by decide
  before_colon ho hl h :=
    Lexeme.admits_of_isBoundary ho hl (by decide) (fun _ => by decide) fun hk => absurd hk h
  before_word {x d} h hd := by
    have hdigit := not_isDecimalDigit_of_startsWord hd
    have hcolon : d ≠ ':' := ne_of_apply_eq_true hd (by decide)
    rcases h with h | h <;> simp [Lexeme.admits, h, hdigit, hcolon]

/-- What is behind a lexeme tells whether it is admitted. -/
theorem isSeam_bounded : IsSeam Lexeme.Bounded where
  after_mark h := by
    refine ⟨?_, .inr ?_⟩ <;> rcases h with h | h <;> simp [Lexeme.isLineComment, Kind.mark?, h]
  before_mark _ hl h := ⟨hl, .inl (isBoundary_of_before_mark h).1⟩
  before_dot _ hl _ := ⟨hl, .inl (by decide)⟩
  before_colon _ hl _ := ⟨hl, .inl (by decide)⟩
  before_word h _ := by
    refine ⟨?_, .inr ?_⟩ <;> rcases h with h | h <;> simp [Lexeme.isLineComment, Kind.mark?, h]

/-- A lexeme at the end of a line is read there. -/
theorem Lexeme.Proper.trimmed_readBefore {x : Lexeme} (hx : x.Proper) (ho : x.isOpen = false)
    {rest : Text} (hrest : ∀ e ∈ rest.head?, endsLine e = true) : x.trimmed.ReadBefore rest := by
  by_cases hl : x.isLineComment = true
  · obtain ⟨v, rfl⟩ := exists_of_isLineComment hl
    obtain ⟨g, -, hg⟩ := Text.exists_trimEnd_append v
    have hv : v.all (fun c => !endsLine c) = true := by
      have hline := hx.form.not_endsLine_of_isLineComment hl
      simp only [List.all_cons, Bool.and_eq_true] at hline
      exact hline.2.2
    rw [trimmed_dashes]
    refine Form.readBefore (.lineComment ?_ hrest)
    rw [hg, List.all_append, Bool.and_eq_true] at hv
    exact hv.1
  · rw [Bool.not_eq_true] at hl
    rw [trimmed_of_not_isLineComment hl]
    refine hx.of_admits fun e he => ?_
    have hblank : e = '\r' ∨ e = '\n' := by simpa [endsLine] using hrest e he
    rcases hblank with rfl | rfl
    · exact admits_of_isBoundary ho hl (by decide) (fun _ => by decide) fun _ => by decide
    · exact admits_of_isBoundary ho hl (by decide) (fun _ => by decide) fun _ => by decide

/-- At the end of a line, a lexeme is trimmed as its text is. -/
theorem Lexeme.Proper.trimEnd_text {x : Lexeme} (hx : x.Proper) (ho : x.isOpen = false) :
    Text.trimEnd x.text = x.trimmed.text := by
  by_cases hl : x.isLineComment = true
  · rw [trimmed, hl, if_pos rfl]
  · rw [Bool.not_eq_true] at hl
    rw [trimmed_of_not_isLineComment hl]
    exact Text.trimEnd_eq_self (hx.not_isBlank_of_mem_getLast? ho hl)

/-! ### Lines -/

namespace Line

variable {c : Casing}

/-- The lexemes of a line. -/
def lexemes (c : Casing) (l : Line) : List Lexeme := l.filterMap (Piece.lexeme? c)

/-- A blank line has no lexemes. -/
theorem lexemes_of_isBlank {l : Line} (hl : isBlank l = true) (hclosed : ∀ p ∈ l, p.IsClosed c) :
    lexemes c l = [] :=
  List.filterMap_eq_nil_iff.mpr (lexeme?_eq_none_of_isBlank hl hclosed)

/-- The relation holds in a line when it holds of its first piece and in the rest. -/
theorem linked_cons {M : Lexeme → Char → Prop} {p : Piece} (hp : p.IsClosed c) {l : Line} :
    Linked c M (p :: l) ↔
      Linked c M l ∧ ∀ x ∈ p.lexeme? c, ∀ d ∈ (shown c l).head?, M x d := by
  have hlast : lastLexeme? c [p] = p.lexeme? c := by
    cases hx : p.lexeme? c with
    | some x =>
      have hne : p.shown c ≠ [] := by
        rw [Piece.shown_of_lexeme? hx]
        exact (hp x hx).1.1
      exact (lastLexeme?_concat hne []).trans hx
    | none =>
      rw [Option.eq_none_iff_forall_not_mem]
      intro x hmem
      obtain ⟨q, hq, hqx⟩ := exists_of_mem_lastLexeme? hmem
      obtain rfl := List.mem_singleton.mp hq
      rw [hx] at hqx
      exact absurd hqx (by simp)
  rw [← List.singleton_append, linked_append, hlast, and_iff_right (linked_singleton p)]

/-- A piece that shows no lexeme is made of spaces. -/
theorem isBlank_of_lexeme?_eq_none {p : Piece} (h : p.lexeme? c = none) :
    Text.isBlank (p.shown c) = true := by
  cases p with
  | pad width =>
    refine List.all_eq_true.mpr fun d hd => ?_
    rw [List.eq_of_mem_replicate hd]
    decide
  | _ => simp [Piece.lexeme?] at h

/-- The rest of a line stands in front of what comes behind the line. -/
theorem trimEnd_shown_cons (p : Piece) (l : Line) : Text.trimEnd (shown c (p :: l))
    = if isBlank l then Text.trimEnd (p.shown c) else p.shown c ++ Text.trimEnd (shown c l) := by
  rw [shown_cons]
  split
  · rename_i h
    rw [← isBlank_shown c] at h
    exact Text.trimEnd_append_of_isBlank _ h
  · rename_i h
    rw [← isBlank_shown c] at h
    exact Text.trimEnd_append _ (by simpa using h)

/-- Spaces at the front of a line do not change what is read. -/
theorem lexemes_trimEnd_cons_of_none {p : Piece} (hp : p.lexeme? c = none) (l : Line)
    (rest : Text) : Text.lexemes (Text.trimEnd (shown c (p :: l)) ++ rest)
      = Text.lexemes (Text.trimEnd (shown c l) ++ rest) := by
  have hblank := isBlank_of_lexeme?_eq_none hp
  rw [trimEnd_shown_cons]
  split
  · rename_i hl
    rw [← isBlank_shown c] at hl
    rw [Text.trimEnd_eq_nil hblank, Text.trimEnd_eq_nil hl]
  · rw [List.append_assoc, Text.lexemes_blank_append hblank]

/-- What comes behind a lexeme in a line starts with what is right behind it. -/
theorem head?_trimEnd_append {l : Line} (hl : isBlank l = false) (rest : Text) :
    (Text.trimEnd (shown c l) ++ rest).head? = (shown c l).head? := by
  rw [← isBlank_shown c] at hl
  rw [List.head?_append, Text.head?_trimEnd hl]
  cases hs : shown c l with
  | nil =>
    rw [hs] at hl
    exact absurd hl (by decide)
  | cons d v => rfl

/-- The lexemes of a line are read when each one admits what is right behind it. -/
theorem lexemes_trimEnd_append {l : Line} (hclosed : ∀ p ∈ l, p.IsClosed c)
    (hbounded : Linked c Lexeme.Bounded l) (hadmits : Linked c (fun x d => x.admits d = true) l)
    {rest : Text} (hrest : ∀ e ∈ rest.head?, endsLine e = true) :
    Text.lexemes (Text.trimEnd (shown c l) ++ rest)
      = (lexemes c l).map Lexeme.trimmed ++ Text.lexemes rest := by
  induction l with
  | nil => rfl
  | cons p l ih =>
    have hp := hclosed p (by simp)
    have hl : ∀ q ∈ l, q.IsClosed c := fun q hq => hclosed q (by simp [hq])
    rw [linked_cons hp] at hbounded hadmits
    have htail := ih hl hbounded.1 hadmits.1
    cases hx : p.lexeme? c with
    | none =>
      rw [lexemes_trimEnd_cons_of_none hx, htail, lexemes, lexemes, List.filterMap_cons_none hx]
    | some x =>
      rw [trimEnd_shown_cons, lexemes, List.filterMap_cons_some hx, Piece.shown_of_lexeme? hx]
      by_cases hblank : isBlank l = true
      · have hread := (hp x hx).1.trimmed_readBefore (hp x hx).2 hrest
        have hnil : List.filterMap (Piece.lexeme? c) l = [] := lexemes_of_isBlank hblank hl
        rw [if_pos hblank, (hp x hx).1.trimEnd_text (hp x hx).2, Text.lexemes_append hread, hnil]
        rfl
      · rw [Bool.not_eq_true] at hblank
        have hhead := head?_trimEnd_append (c := c) hblank rest
        have hread : x.ReadBefore (Text.trimEnd (shown c l) ++ rest) :=
          (hp x hx).1.of_admits fun e he => hadmits.2 x hx e (hhead ▸ he)
        -- A comment up to the end of the line would have nothing behind it.
        have hline : x.isLineComment = false := by
          cases hs : (shown c l).head? with
          | some e => exact (hbounded.2 x hx e hs).1
          | none =>
            rw [List.head?_eq_none_iff] at hs
            rw [← isBlank_shown c, hs] at hblank
            exact absurd hblank (by decide)
        rw [hblank, if_neg (by decide), List.append_assoc, Text.lexemes_append hread, htail,
          List.map_cons, Lexeme.trimmed_of_not_isLineComment hline]
        rfl

end Line

/-! ### What was read tells what is admitted -/

/-- Only a semicolon starts with one. -/
theorem Lexeme.Proper.kind_of_head? {x : Lexeme} (hx : x.Proper) (h : x.text.head? = some ';') :
    x.kind = .semicolon := by
  obtain ⟨v, hv⟩ := List.head?_eq_some_iff.mp h
  have hsemicolon : Lexeme.ReadBefore ⟨.semicolon, [';']⟩ v :=
    (Piece.proper_of_mark? (k := .semicolon) rfl).of_admits fun _ _ => rfl
  have hread := Text.lexemes_append hx
  rw [List.append_nil, hv] at hread
  have hread' := Text.lexemes_append hsemicolon
  rw [List.singleton_append, hread] at hread'
  rw [(List.cons.inj hread').1]

/-- A lexeme that is found again among what is read, semicolons outside of all parentheses left
    out, was read where it stands. -/
theorem Lexeme.Proper.readBefore_of_unended {x : Lexeme} (hx : x.Proper)
    (hl : x.isLineComment = false) {text : Text} {more : List Lexeme} {depth : Nat}
    (h : (unended Lexeme.kind depth (Text.lexemes (x.text ++ text))).map Lexeme.trimmed
      = (unended Lexeme.kind depth (x :: more)).map Lexeme.trimmed) : x.ReadBefore text := by
  -- A semicolon may be left out of the lexemes, but it is read in front of anything.
  by_cases hsemicolon : x.kind = .semicolon
  · exact hx.of_admits fun e _ => by simp [admits, hsemicolon]
  · obtain ⟨d, v, hv⟩ := List.exists_cons_of_ne_nil hx.1
    have hd : isBlank d = false := hx.not_isBlank_of_mem_head? d (by simp [hv])
    obtain ⟨y, rest, hsplit, hread⟩ := Token.exists_readBefore (t := v ++ text) hd
    rw [← List.cons_append, ← hv] at hsplit
    -- What is read here starts like the lexeme, so that it is no semicolon that could be left out.
    have hy : y.kind ≠ .semicolon := by
      intro hk
      have hyt : y.text = [';'] := hread.form.text_of_mark? (by rw [hk]; rfl)
      rw [hv, hyt] at hsplit
      obtain ⟨rfl, -⟩ := List.cons.inj hsplit
      exact hsemicolon (hx.kind_of_head? (by simp [hv]))
    have hlexemes := Text.lexemes_append hread
    rw [← hsplit] at hlexemes
    rw [hlexemes, unended, if_neg fun h => hy h.1, unended, if_neg fun h => hsemicolon h.1,
      List.map_cons, List.map_cons, trimmed_of_not_isLineComment hl] at h
    have hline : y.isLineComment = false := by
      rw [← isLineComment_trimmed, (List.cons.inj h).1, hl]
    obtain rfl : y = x := by
      rw [← trimmed_of_not_isLineComment hline]
      exact (List.cons.inj h).1
    exact (Text.readBefore_of_lexemes_append hread.not_isBlank_of_mem_head? hread.1 hlexemes).1

/-- What comes behind a lexeme is read as before when both are. -/
theorem unended_tail {x y : Lexeme} (hk : y.kind = x.kind) {xs ys : List Lexeme} {depth : Nat}
    (h : (unended Lexeme.kind depth (y :: ys)).map Lexeme.trimmed
      = (unended Lexeme.kind depth (x :: xs)).map Lexeme.trimmed) :
    (unended Lexeme.kind (x.kind.depthAfter depth) ys).map Lexeme.trimmed
      = (unended Lexeme.kind (x.kind.depthAfter depth) xs).map Lexeme.trimmed := by
  rw [unended, unended, hk] at h
  split at h
  · rename_i hend
    rw [hend.1]
    exact h
  · rw [List.map_cons, List.map_cons] at h
    exact (List.cons.inj h).2

namespace Line

variable {c : Casing}

/-- Where the lexemes of a line are read, each one admits what is right behind it. -/
theorem linked_of_unended {l : Line} (hclosed : ∀ p ∈ l, p.IsClosed c)
    (hbounded : Linked c Lexeme.Bounded l) {rest : Text}
    (hrest : ∀ e ∈ rest.head?, endsLine e = true) {more : List Lexeme} {depth : Nat}
    (h : (unended Lexeme.kind depth
        (Text.lexemes (Text.trimEnd (shown c l) ++ rest))).map Lexeme.trimmed
      = (unended Lexeme.kind depth (lexemes c l ++ more)).map Lexeme.trimmed) :
    Linked c (fun x d => x.admits d = true) l ∧
      (unended Lexeme.kind (depthAfterAll Lexeme.kind depth (lexemes c l))
          (Text.lexemes rest)).map Lexeme.trimmed
        = (unended Lexeme.kind (depthAfterAll Lexeme.kind depth (lexemes c l)) more).map
          Lexeme.trimmed := by
  -- By induction on the pieces: a lexeme is read first, and what is left is read of the others.
  induction l generalizing depth with
  | nil => exact ⟨linked_nil, h⟩
  | cons p l ih =>
    have hp := hclosed p (by simp)
    have hl : ∀ q ∈ l, q.IsClosed c := fun q hq => hclosed q (by simp [hq])
    rw [linked_cons hp] at hbounded ⊢
    cases hx : p.lexeme? c with
    | none =>
      have hsame : lexemes c (p :: l) = lexemes c l := List.filterMap_cons_none hx
      rw [lexemes_trimEnd_cons_of_none hx, hsame] at h
      rw [hsame]
      obtain ⟨hlinked, hmore⟩ := ih hl hbounded.1 h
      exact ⟨⟨hlinked, fun x hmem => absurd hmem (by simp)⟩, hmore⟩
    | some x =>
      have hcons : lexemes c (p :: l) = x :: lexemes c l := List.filterMap_cons_some hx
      obtain ⟨hproper, ho⟩ := hp x hx
      rw [hcons, List.cons_append, trimEnd_shown_cons, Piece.shown_of_lexeme? hx] at h
      rw [hcons, depthAfterAll, List.foldl_cons]
      by_cases hblank : isBlank l = true
      · -- The lexeme is the last one of its line, so that there are at most spaces behind it.
        have hread := hproper.trimmed_readBefore ho hrest
        have hnil := lexemes_of_isBlank hblank hl
        rw [if_pos hblank, hproper.trimEnd_text ho, Text.lexemes_append hread, hnil,
          List.nil_append] at h
        refine ⟨⟨linked_of_isBlank hblank hl, fun y hy d hd => ?_⟩, ?_⟩
        · obtain rfl := Option.some.inj hy
          rw [← isBlank_shown c] at hblank
          have hd' : Unicode.isBlank d = true :=
            List.all_eq_true.mp hblank d (List.mem_of_mem_head? hd)
          refine Lexeme.admits_of_isBoundary ho (hbounded.2 x hx d hd).1
            (by rw [isBoundary, hd', Bool.true_or]) (fun _ => ?_) fun _ => ?_
          · exact ne_of_apply_eq_true hd' (by decide)
          · exact ne_of_apply_eq_true hd' (by decide)
        · rw [hnil]
          exact unended_tail (Lexeme.kind_trimmed x) h
      · rw [Bool.not_eq_true] at hblank
        rw [hblank, if_neg (by decide), List.append_assoc] at h
        have hhead := head?_trimEnd_append (c := c) hblank rest
        obtain ⟨e, he⟩ : ∃ e, (shown c l).head? = some e := by
          rw [← Option.isSome_iff_exists, List.isSome_head?]
          rintro hs
          rw [← isBlank_shown c, hs] at hblank
          exact absurd hblank (by decide)
        obtain ⟨hline, hbound⟩ := hbounded.2 x hx e he
        have hread := hproper.readBefore_of_unended hline h
        rw [Text.lexemes_append hread] at h
        obtain ⟨hlinked, hmore⟩ := ih hl hbounded.1 (unended_tail rfl h)
        refine ⟨⟨hlinked, fun y hy d hd => ?_⟩, hmore⟩
        obtain rfl := Option.some.inj hy
        obtain rfl := Option.some.inj (he.symm.trans hd)
        obtain ⟨v, hv⟩ := List.head?_eq_some_iff.mp (hhead.trans he)
        rw [hv] at hread
        exact hread.admits hbound

end Line

/-! ### Pages -/

namespace Script

variable {c : Casing}

/-- The first line is in front of the others. -/
theorem write_cons_cons (eol : Text) (l m : Line) (ls : List Line) : write c eol (l :: m :: ls)
    = Text.trimEnd (l.shown c) ++ (eol ++ write c eol (m :: ls)) := by
  simp [write, Text.join]

/-- One line is written without the blanks at its end, and without a line break. -/
theorem write_singleton (eol : Text) (l : Line) : write c eol [l] = Text.trimEnd (l.shown c) := by
  simp [write, Text.join]

/-- A line break is blank, and ends the line in front of it. -/
theorem lineBreak_spec (t : Text) : Text.isBlank (Text.lineBreak t) = true ∧
    ∀ rest : Text, ∀ e ∈ (Text.lineBreak t ++ rest).head?, endsLine e = true := by
  unfold Text.lineBreak
  split
  · refine ⟨by decide, fun rest e he => ?_⟩
    obtain rfl : '\r' = e := by simpa [Text.carriageReturnLineFeed] using he
    rfl
  · refine ⟨by decide, fun rest e he => ?_⟩
    obtain rfl : '\n' = e := by simpa [Text.lineFeed] using he
    rfl

/-- Where all lexemes admit what is right behind them, the lexemes of the lines are read. -/
theorem lexemes_write (t : Text) {ls : List Line} (hclosed : ∀ l ∈ ls, ∀ p ∈ l, p.IsClosed c)
    (hbounded : ∀ l ∈ ls, Line.Linked c Lexeme.Bounded l)
    (hadmits : ∀ l ∈ ls, Line.Linked c (fun x d => x.admits d = true) l) :
    Text.lexemes (write c (Text.lineBreak t) ls)
      = (ls.flatMap (Line.lexemes c)).map Lexeme.trimmed := by
  obtain ⟨hblank, hhead⟩ := lineBreak_spec t
  induction ls with
  | nil => rfl
  | cons l ls ih =>
    have hfirst : ∀ rest : Text, (∀ e ∈ rest.head?, endsLine e = true) →
        Text.lexemes (Text.trimEnd (l.shown c) ++ rest)
          = (Line.lexemes c l).map Lexeme.trimmed ++ Text.lexemes rest :=
      fun rest => Line.lexemes_trimEnd_append (hclosed l (by simp)) (hbounded l (by simp))
        (hadmits l (by simp))
    have hrest := ih (fun m hm => hclosed m (by simp [hm])) (fun m hm => hbounded m (by simp [hm]))
      fun m hm => hadmits m (by simp [hm])
    cases ls with
    | nil =>
      have := hfirst [] (by simp)
      rw [List.append_nil, Text.lexemes_nil, List.append_nil] at this
      rw [write_singleton, this]
      simp
    | cons m ls =>
      rw [write_cons_cons, hfirst _ (hhead _), Text.lexemes_blank_append hblank, hrest,
        ← List.map_append]
      rfl

/-- Where the lexemes of the lines are read, semicolons outside of all parentheses left out, each one
    admits what is right behind it. -/
theorem linked_of_unended_write (t : Text) {ls : List Line}
    (hclosed : ∀ l ∈ ls, ∀ p ∈ l, p.IsClosed c)
    (hbounded : ∀ l ∈ ls, Line.Linked c Lexeme.Bounded l) {depth : Nat}
    (h : (unended Lexeme.kind depth
        (Text.lexemes (write c (Text.lineBreak t) ls))).map Lexeme.trimmed
      = (unended Lexeme.kind depth (ls.flatMap (Line.lexemes c))).map Lexeme.trimmed) :
    ∀ l ∈ ls, Line.Linked c (fun x d => x.admits d = true) l := by
  obtain ⟨hblank, hhead⟩ := lineBreak_spec t
  -- By induction on the lines: the next one is read first, and what is left is read of the others.
  induction ls generalizing depth with
  | nil => simp
  | cons l ls ih =>
    rw [List.flatMap_cons] at h
    cases ls with
    | nil =>
      rw [write_singleton] at h
      have := Line.linked_of_unended (hclosed l (by simp)) (hbounded l (by simp))
        (show ∀ e ∈ ([] : Text).head?, endsLine e = true by simp) (by rwa [List.append_nil])
      intro m hm
      obtain rfl := List.mem_singleton.mp hm
      exact this.1
    | cons m ls =>
      rw [write_cons_cons] at h
      obtain ⟨hl, hmore⟩ :=
        Line.linked_of_unended (hclosed l (by simp)) (hbounded l (by simp)) (hhead _) h
      rw [Text.lexemes_blank_append hblank] at hmore
      have hrest := ih (fun m hm => hclosed m (by simp [hm])) (fun m hm => hbounded m (by simp [hm]))
        hmore
      intro k hk
      rcases List.mem_cons.mp hk with rfl | hk
      · exact hl
      · exact hrest k hk

end Script

end SqlScript
