import SqlScript.Proofs.Layout.Reread

namespace SqlScript

open Unicode

/-!
# Tokens that fuse

Two tokens that are written without anything between them can be read as others.

* `Script.linked_layOut` — a relation holds in the lines of a script exactly when it holds of the
  tokens that are glued;
* `Frame.fuses` — whether two tokens are glued, and read as others then;
* `Statement.IsApart` — whether no tokens of a statement fuse;
* `Statement.isApart_iff` — that is the case exactly when they admit what they are glued to.
-/

/-! ### Neighbours -/

namespace Node

mutual

/-- What follows from a property of two tokens holds in a node of which the property holds. -/
theorem Pairs.mono {P P' : Frame → Nat → Token → Token → Prop} {Q : Token → Prop}
    (h : ∀ f position a b, Q a → Q b → P f position a b → P' f position a b) :
    (n : Node) → (∀ t ∈ n.tokens, Q t) → n.Pairs P → n.Pairs P'
  | .leaf _, _, _ => trivial
  | .block interior _, ht, hn =>
    AllPairs.mono h (Frame.ofNodes interior) 0 interior
      (fun t hmem => ht t (by simp [tokens, hmem])) hn

/-- What follows from a property of two tokens holds of the neighbours of which the property holds. -/
theorem AllPairs.mono {P P' : Frame → Nat → Token → Token → Prop} {Q : Token → Prop}
    (h : ∀ f position a b, Q a → Q b → P f position a b → P' f position a b) (f : Frame)
    (position : Nat) : (ns : List Node) → (∀ t ∈ allTokens ns, Q t) → AllPairs P f position ns →
    AllPairs P' f position ns
  | [], _, _ => trivial
  | n :: rest, ht, hns => by
    obtain ⟨hn, hnext, hrest⟩ := hns
    refine ⟨Pairs.mono h n (fun t hmem => ht t (by simp [allTokens, hmem])) hn, ?_,
      AllPairs.mono h f (position + 1) rest (fun t hmem => ht t (by simp [allTokens, hmem])) hrest⟩
    cases rest with
    | nil => exact neighbours_none _
    | cons m rest =>
      cases n with
      | block interior span => trivial
      | leaf a =>
        cases m with
        | block interior span => trivial
        | leaf b =>
          exact h f position a b (ht a (by simp [allTokens, tokens]))
            (ht b (by simp [allTokens, tokens])) hnext

end

mutual

/-- What always holds, holds of the neighbours in a node. -/
theorem pairs_true : (n : Node) → n.Pairs fun _ _ _ _ => True
  | .leaf _ => trivial
  | .block interior _ => allPairs_true (Frame.ofNodes interior) 0 interior

/-- What always holds, holds of the neighbours in a sequence of nodes. -/
theorem allPairs_true (f : Frame) (position : Nat) :
    (ns : List Node) → AllPairs (fun _ _ _ _ => True) f position ns
  | [] => trivial
  | n :: rest => by
    refine ⟨pairs_true n, ?_, allPairs_true f (position + 1) rest⟩
    cases rest with
    | nil => exact neighbours_none _
    | cons m rest => cases n <;> cases m <;> trivial

end

end Node

/-! ### Lines of statements -/

/-- Whether the relation holds of the tokens of a statement that are glued. -/
def Statement.IsGluedBy (c : Casing) (M : Lexeme → Char → Prop) (s : Statement) : Prop :=
  ∀ ns, Node.ofTokens s.tokens = .ok ns →
    Node.AllPairs (Frame.GluedBy c M) (Frame.ofNodes ns) 0 ns

/-- The terminator fits behind whatever a statement ends with. -/
theorem linked_terminated {c : Casing} {M : Lexeme → Char → Prop} (hM : IsSeam M) {ls : List Line}
    (hclosed : ∀ l ∈ ls, ∀ p ∈ l, p.IsClosed c)
    (hlast : ∀ l ∈ ls.getLast?, ∀ p ∈ l, p.isLineComment c = false) :
    (∀ l ∈ terminated ls, ∀ p ∈ l, p.IsClosed c) ∧
      ((∀ l ∈ terminated ls, Line.Linked c M l) ↔ ∀ l ∈ ls, Line.Linked c M l) := by
  have hterminator := Piece.isClosed_terminator c
  unfold terminated
  cases hls : ls.getLast? with
  | none =>
    obtain rfl := List.getLast?_eq_none_iff.mp hls
    simpa [Line.linked_singleton] using hterminator
  | some m =>
    obtain ⟨before, rfl⟩ := List.getLast?_eq_some_iff.mp hls
    rw [List.dropLast_concat, Option.getD_some]
    constructor
    · intro l hl p hp
      rcases List.mem_append.mp hl with hl | hl
      · exact hclosed l (by simp [hl]) p hp
      · obtain rfl := List.mem_singleton.mp hl
        rcases List.mem_append.mp hp with hp | hp
        · exact hclosed m (by simp) p hp
        · obtain rfl := List.mem_singleton.mp hp
          exact hterminator
    · -- Only the last line changes, and what it ends with is closed and is no comment that goes on.
      have hfits : Line.Linked c M (m ++ [.terminator]) ↔ Line.Linked c M m := by
        rw [Line.linked_append]
        refine and_iff_left ⟨Line.linked_singleton _, fun x hx e he => ?_⟩
        obtain rfl : ';' = e := by simpa [Line.shown, Piece.shown, Piece.textBy] using he
        obtain ⟨p, hp, hpx⟩ := Line.exists_of_mem_lastLexeme? hx
        have hl := hlast m (by simp) p hp
        rw [Piece.isLineComment, show p.lexeme? c = some x from hpx, Option.any_some] at hl
        exact hM.before_mark (hclosed m (by simp) p hp x hpx).2 hl (by decide)
      simp only [List.mem_append, List.mem_singleton, or_imp, forall_and, forall_eq, hfits]

/-- The relation holds in the lines of a statement exactly when it holds of the tokens that are
    glued. -/
theorem Statement.linked_layOut {c : Casing} {M : Lexeme → Char → Prop} (hM : IsSeam M)
    {sp : Spacing} {s : Statement} {ls : List Line} (hmarked : ∀ t ∈ s.tokens, t.IsMarked)
    (hparens : ∀ t ∈ s.tokens, t.IsParenPlaced) (ht : ∀ t ∈ s.tokens, t.IsClosed c)
    (h : s.layOut sp = .ok ls) :
    (∀ l ∈ ls, ∀ p ∈ l, p.IsClosed c) ∧
      ((∀ l ∈ ls, Line.Linked c M l) ↔ s.IsGluedBy c M) := by
  obtain ⟨ns, own, hns, hown, rfl⟩ := layOut_eq_ok h
  have htokens := Node.allTokens_ofTokens hparens hns
  obtain ⟨hclosed, hlast, hlinked⟩ := Node.linked_layOut hM (by rwa [htokens]) (by rwa [htokens])
    (Node.allFull_ofTokens hparens hns) hown
  have hglued : s.IsGluedBy c M
      ↔ Node.AllPairs (Frame.GluedBy c M) (Frame.ofNodes ns) 0 ns := by
    rw [IsGluedBy, hns]
    simp
  rw [hglued, ← hlinked]
  split
  · exact ⟨fun l hl => hclosed l (Line.mem_dropBlankEnd hl),
      Line.forall_mem_dropBlankEnd fun l hl hblank => Line.linked_of_isBlank hblank (hclosed l hl)⟩
  · split
    · exact linked_terminated hM hclosed hlast
    · exact ⟨hclosed, Iff.rfl⟩

/-- The relation holds in the lines of statements exactly when it holds of the tokens that are
    glued. -/
theorem Style.linked_layOut {c : Casing} {M : Lexeme → Char → Prop} (hM : IsSeam M) {style : Style}
    {previous : Option Statement} {ss : List (Statement × Int)} {ls : List Line}
    (hmarked : ∀ p ∈ ss, ∀ t ∈ p.1.tokens, t.IsMarked)
    (hparens : ∀ p ∈ ss, ∀ t ∈ p.1.tokens, t.IsParenPlaced)
    (ht : ∀ p ∈ ss, ∀ t ∈ p.1.tokens, t.IsClosed c) (h : style.layOut previous ss = .ok ls) :
    (∀ l ∈ ls, ∀ p ∈ l, p.IsClosed c) ∧
      ((∀ l ∈ ls, Line.Linked c M l) ↔ ∀ s ∈ ss.map (·.1), s.IsGluedBy c M) := by
  induction ss generalizing previous ls with
  | nil =>
    obtain rfl := Except.ok.inj h
    simp
  | cons p ss ih =>
    obtain ⟨s, indent⟩ := p
    obtain ⟨own, others, hown, hothers, rfl⟩ := layOut_cons_eq_ok h
    obtain ⟨hclosed, hlinked⟩ := Statement.linked_layOut hM (hmarked (s, indent) (by simp))
      (hparens (s, indent) (by simp)) (ht (s, indent) (by simp)) hown
    obtain ⟨hcloseds, hlinkeds⟩ := ih (fun q hq => hmarked q (by simp [hq]))
      (fun q hq => hparens q (by simp [hq])) (fun q hq => ht q (by simp [hq])) hothers
    -- The lines of each statement are behind a margin, and an empty one may be in front of them.
    have hgap : ∀ l ∈ (if style.separates previous s then [[]] else [] : List Line), l = [] := by
      split <;> simp
    constructor
    · intro l hl q hq
      rcases List.mem_append.mp hl with hl | hl
      · rcases List.mem_append.mp hl with hl | hl
        · rw [hgap l hl] at hq
          exact absurd hq (by simp)
        · obtain ⟨m, hm, rfl⟩ := List.mem_map.mp hl
          rcases List.mem_append.mp hq with hq | hq
          · exact Draft.isClosed_indented _ q hq
          · exact hclosed m hm q hq
      · exact hcloseds l hl q hq
    · simp only [List.mem_append, or_imp, forall_and, List.forall_mem_map,
        Line.linked_indented_append, List.map_cons, List.forall_mem_cons, hlinked, hlinkeds]
      refine and_congr_left fun _ => and_iff_right fun l hl => ?_
      rw [hgap l hl]
      exact Line.linked_nil

/-- The relation holds in the lines of a script exactly when it holds of the tokens that are
    glued. -/
theorem Script.linked_layOut {c : Casing} {M : Lexeme → Char → Prop} (hM : IsSeam M) {style : Style}
    {t : Text} {ls : List Line} (ht : ∀ u ∈ Token.scan t, u.IsClosed c)
    (h : (Script.ofText t).layOut style = .ok ls) :
    (∀ l ∈ ls, ∀ p ∈ l, p.IsClosed c) ∧
      ((∀ l ∈ ls, Line.Linked c M l) ↔ ∀ s ∈ (Script.ofText t).statements, s.IsGluedBy c M) := by
  have hmem := fun p hp u => @Script.mem_scan_of_mem_indentations style.spacing.indentWidth t p hp u
  rw [← Script.map_fst_indentations style.spacing.indentWidth t]
  exact Style.linked_layOut hM
    (fun p hp u hu => Token.isMarked_of_mem_scan (hmem p hp u hu))
    (fun p hp u hu => Token.isParenPlaced_of_mem_scan (hmem p hp u hu))
    (fun p hp u hu => ht u (hmem p hp u hu)) h

/-! ### Fusion -/

/-- Whether the lexeme `y` is written right behind the lexeme `x`, which is at the position, and read
    as a part of it: digits and a dot make a number, and so do a dot and a number, and two colons
    make an operator. The colon behind a label has a space behind it. -/
def Frame.fuses (f : Frame) (position : Nat) (x y : Lexeme) : Bool :=
  (x.kind == .number && x.text.all isDecimalDigit && y.kind == .dot) ||
    (x.kind == .dot && y.text.head?.any isDecimalDigit) ||
    (x.kind == .colon && y.text.head? == some ':' && !f.isLabelColon position)

/-- Tokens that do not fuse are those that admit what they are glued to. -/
theorem Frame.gluedBy_admits_iff {c : Casing} {f : Frame} {position : Nat} {a b : Token}
    (hmarked : b.IsMarked) (hb : b.IsClosed c) :
    f.GluedBy c (fun x d => x.admits d = true) position a b
      ↔ f.fuses position (a.shownAs c) (b.shownAs c) = false := by
  -- What does not start like a word is no keyword, so that a dot or a colon is glued to it.
  have hkeyword : ∀ e ∈ (c.apply b).head?, startsWord e = false → b.kind.isKeyword = false := by
    intro e he hword
    by_contra hk
    rw [Bool.not_eq_false] at hk
    have := startsWord_of_isKeyword hb.1 hk e he
    exact absurd (this.symm.trans hword) (by decide)
  have hdot : b.kind = .dot → c.apply b = ['.'] := fun hk => by
    have hm : b.kind.mark? = some '.' := by rw [hk]; rfl
    rw [c.apply_of_mark? hmarked hm, hmarked '.' hm]
  constructor
  · intro h
    by_contra hf
    simp only [fuses, Token.shownAs, Bool.not_eq_false, Bool.or_eq_true, Bool.and_eq_true,
      beq_iff_eq, Bool.not_eq_true'] at hf
    rcases hf with (⟨⟨hk, hall⟩, hk'⟩ | ⟨hk, hhead⟩) | ⟨⟨hk, hhead⟩, hlabel⟩
    · have := h (by simp [glues, hk, hk']) '.' (by rw [hdot hk']; rfl)
      simp [Lexeme.admits, Token.shownAs, hk, hall] at this
    · obtain ⟨e, he, hdigit⟩ := Option.any_eq_true .. |>.mp hhead
      have hword : startsWord e = false := by
        by_contra hw
        have := not_isDecimalDigit_of_startsWord (by simpa using hw : startsWord e = true)
        exact absurd (this.symm.trans hdigit) (by decide)
      have := h (by simp [glues, hk, hkeyword e he hword]) e he
      simp [Lexeme.admits, Token.shownAs, hk, hdigit] at this
    · have := h (by simp [glues, hk, hlabel, hkeyword ':' hhead (by decide)]) ':' hhead
      simp [Lexeme.admits, Token.shownAs, hk] at this
  · intro hf hg e he
    simp only [fuses, Token.shownAs, Bool.or_eq_false_iff, Bool.and_eq_false_imp, Bool.and_eq_true,
      beq_iff_eq, beq_eq_false_iff_ne, Bool.not_eq_false', and_imp] at hf
    obtain ⟨⟨hnumber, hdigit⟩, hcolon⟩ := hf
    simp only [glues, Bool.or_eq_true, Bool.and_eq_true, beq_iff_eq, Bool.not_eq_true'] at hg
    rcases hg with ⟨hk, hk'⟩ | ⟨hk | ⟨hk, hlabel⟩, -⟩
    · rw [hdot hk'] at he
      obtain rfl : '.' = e := by simpa using he
      have hnot : (c.apply a).all isDecimalDigit = false := by
        by_contra hall
        exact hnumber hk (by simpa using hall) hk'
      simp [Lexeme.admits, Token.shownAs, hk, hnot, show isBoundary '.' = true by decide]
    · have := hdigit hk
      rw [show (c.apply b).head? = some e from he, Option.any_some] at this
      simp [Lexeme.admits, Token.shownAs, hk, this]
    · have hne : e ≠ ':' := by
        rintro rfl
        have := hcolon hk he
        exact absurd (this.symm.trans hlabel) (by decide)
      simp [Lexeme.admits, Token.shownAs, hk, hne]

/-- What is glued to a token tells whether the token admits it. -/
theorem Frame.gluedBy_bounded {c : Casing} {f : Frame} {position : Nat} {a b : Token}
    (hmarked : b.IsMarked) : f.GluedBy c Lexeme.Bounded position a b := by
  intro hg e he
  simp only [glues, Bool.or_eq_true, Bool.and_eq_true, beq_iff_eq, Bool.not_eq_true'] at hg
  rcases hg with ⟨hk, hk'⟩ | ⟨hk | ⟨hk, -⟩, -⟩
  · have hm : b.kind.mark? = some '.' := by rw [hk']; rfl
    rw [c.apply_of_mark? hmarked hm, hmarked '.' hm] at he
    obtain rfl : '.' = e := by simpa using he
    exact ⟨by simp [Lexeme.isLineComment, Token.shownAs, hk], .inl (by decide)⟩
  · exact ⟨by simp [Lexeme.isLineComment, Token.shownAs, hk],
      .inr (by simp [Token.shownAs, hk, Kind.mark?])⟩
  · exact ⟨by simp [Lexeme.isLineComment, Token.shownAs, hk],
      .inr (by simp [Token.shownAs, hk, Kind.mark?])⟩

/-- Whether no tokens of the nodes fuse, in the chosen cases. -/
def Node.AllApart (c : Casing) (ns : List Node) : Prop :=
  AllPairs (fun f position a b => f.fuses position (a.shownAs c) (b.shownAs c) = false)
    (Frame.ofNodes ns) 0 ns

/-- Whether no tokens of the statement fuse, in the chosen cases. -/
def Statement.IsApart (c : Casing) (s : Statement) : Prop :=
  ∀ ns, Node.ofTokens s.tokens = .ok ns → Node.AllApart c ns

instance (c : Casing) (ns : List Node) : Decidable (Node.AllApart c ns) :=
  inferInstanceAs (Decidable (Node.AllPairs _ _ _ _))

instance (c : Casing) (s : Statement) : Decidable (s.IsApart c) :=
  match h : Node.ofTokens s.tokens with
  | .error _ => isTrue fun _ hns => absurd (h.symm.trans hns) (by simp)
  | .ok ns => decidable_of_iff (Node.AllApart c ns) ⟨fun hapart ms hms => by
      obtain rfl := Except.ok.inj (h.symm.trans hms)
      exact hapart, fun hapart => hapart ns h⟩

/-- No tokens of a statement fuse exactly when they admit what they are glued to. -/
theorem Statement.isApart_iff {c : Casing} {s : Statement} (hmarked : ∀ t ∈ s.tokens, t.IsMarked)
    (hparens : ∀ t ∈ s.tokens, t.IsParenPlaced) (ht : ∀ t ∈ s.tokens, t.IsClosed c) :
    s.IsApart c ↔ s.IsGluedBy c fun x d => x.admits d = true := by
  refine forall_congr' fun ns => forall_congr' fun hns => ?_
  have htokens := Node.allTokens_ofTokens hparens hns
  have hall : ∀ t ∈ Node.allTokens ns, t.IsMarked ∧ t.IsClosed c := by
    rw [htokens]
    exact fun t hmem => ⟨hmarked t hmem, ht t hmem⟩
  constructor
  · exact Node.AllPairs.mono (fun f position a b _ hb => (Frame.gluedBy_admits_iff hb.1 hb.2).mpr)
      _ 0 ns hall
  · exact Node.AllPairs.mono (fun f position a b _ hb => (Frame.gluedBy_admits_iff hb.1 hb.2).mp)
      _ 0 ns hall

/-- What is glued to a token starts with a boundary of tokens. -/
theorem Statement.isGluedBy_bounded (c : Casing) {s : Statement}
    (hmarked : ∀ t ∈ s.tokens, t.IsMarked) (hparens : ∀ t ∈ s.tokens, t.IsParenPlaced) :
    s.IsGluedBy c Lexeme.Bounded := by
  intro ns hns
  have htokens := Node.allTokens_ofTokens hparens hns
  exact Node.AllPairs.mono (Q := Token.IsMarked)
    (fun f position a b _ hb _ => Frame.gluedBy_bounded hb) _ 0 ns (by rwa [htokens])
    (Node.allPairs_true _ 0 ns)

/-- In the lines of a script all lexemes admit what is right behind them exactly when no tokens of a
    statement fuse. What is right behind them tells whether they do. -/
theorem Script.linked_admits_iff {c : Casing} {style : Style} {t : Text} {ls : List Line}
    (hclosed : ∀ u ∈ Token.scan t, u.IsClosed c) (h : (ofText t).layOut style = .ok ls) :
    (∀ l ∈ ls, ∀ p ∈ l, p.IsClosed c) ∧ (∀ l ∈ ls, Line.Linked c Lexeme.Bounded l) ∧
      ((∀ l ∈ ls, Line.Linked c (fun x d => x.admits d = true) l)
        ↔ ∀ s ∈ (ofText t).statements, s.IsApart c) := by
  have hmem : ∀ s ∈ (ofText t).statements, ∀ u ∈ s.tokens, u ∈ Token.scan t :=
    fun s hs u hu => Statement.mem_of_mem_tokens hs hu
  obtain ⟨hpieces, hbounded⟩ := linked_layOut isSeam_bounded hclosed h
  obtain ⟨-, hadmits⟩ := linked_layOut isSeam_admits hclosed h
  refine ⟨hpieces, hbounded.mpr fun s hs => s.isGluedBy_bounded _
    (fun u hu => Token.isMarked_of_mem_scan (hmem s hs u hu))
    (fun u hu => Token.isParenPlaced_of_mem_scan (hmem s hs u hu)), hadmits.trans ?_⟩
  exact forall_congr' fun s => forall_congr' fun hs => (Statement.isApart_iff
    (fun u hu => Token.isMarked_of_mem_scan (hmem s hs u hu))
    (fun u hu => Token.isParenPlaced_of_mem_scan (hmem s hs u hu))
    (fun u hu => hclosed u (hmem s hs u hu))).symm

end SqlScript
