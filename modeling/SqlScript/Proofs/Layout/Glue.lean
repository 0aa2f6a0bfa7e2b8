import SqlScript.Proofs.Layout.Adjacent

namespace SqlScript

/-!
# Glued tokens

The layout writes most tokens with a space or a mark between them, where no two tokens can be taken
for others. What is written right behind something else is a dot behind a number, and whatever comes
after a dot, or after a colon that does not belong to a label.

* `Frame.glues` — whether two tokens of a sequence are written without anything between them;
* `Node.AllPairs` — a property of the neighbours in a sequence of nodes, and in its blocks;
* `Draft.Follows` — what the end of a draft has to do with the node before the next one;
* `Draft.adds_addNodes` — a relation holds in the lines of nodes exactly when it holds of the tokens
  that are glued.
-/

/-! ### Neighbours -/

namespace Node

/-- Whether the property holds of two nodes that are both tokens, the first one being at the
    position. -/
def Neighbours (P : Frame → Nat → Token → Token → Prop) (f : Frame) (position : Nat) :
    Option Node → Option Node → Prop
  | some (leaf a), some (leaf b) => P f position a b
  | _, _ => True

mutual

/-- Whether the property holds of the neighbours in a block. -/
def Pairs (P : Frame → Nat → Token → Token → Prop) : Node → Prop
  | leaf _ => True
  | block interior _ => AllPairs P (Frame.ofNodes interior) 0 interior

/-- Whether the property holds of the neighbours in a sequence of nodes, the first one being at the
    position, and in all blocks of the sequence. -/
def AllPairs (P : Frame → Nat → Token → Token → Prop) (f : Frame) (position : Nat) :
    List Node → Prop
  | [] => True
  | n :: rest =>
    n.Pairs P ∧ Neighbours P f position (some n) rest.head? ∧ AllPairs P f (position + 1) rest

end

instance (P : Frame → Nat → Token → Token → Prop) [∀ f i a b, Decidable (P f i a b)] (f : Frame)
    (position : Nat) : (n m : Option Node) → Decidable (Neighbours P f position n m)
  | some (leaf a), some (leaf b) => inferInstanceAs (Decidable (P f position a b))
  | some (leaf _), some (block _ _) => isTrue trivial
  | some (leaf _), none => isTrue trivial
  | some (block _ _), _ => isTrue trivial
  | none, _ => isTrue trivial

mutual

/-- Whether a property that can be decided holds of the neighbours in a block. -/
def decidePairs (P : Frame → Nat → Token → Token → Prop) [∀ f i a b, Decidable (P f i a b)] :
    (n : Node) → Decidable (n.Pairs P)
  | leaf _ => isTrue trivial
  | block interior _ => decideAllPairs P (Frame.ofNodes interior) 0 interior

/-- Whether a property that can be decided holds of the neighbours in a sequence of nodes. -/
def decideAllPairs (P : Frame → Nat → Token → Token → Prop) [∀ f i a b, Decidable (P f i a b)]
    (f : Frame) (position : Nat) : (ns : List Node) → Decidable (AllPairs P f position ns)
  | [] => isTrue trivial
  | n :: rest =>
    have := decidePairs P n
    have := decideAllPairs P f (position + 1) rest
    inferInstanceAs (Decidable (_ ∧ _ ∧ _))

end

instance (P : Frame → Nat → Token → Token → Prop) [∀ f i a b, Decidable (P f i a b)] (f : Frame)
    (position : Nat) (ns : List Node) : Decidable (AllPairs P f position ns) :=
  decideAllPairs P f position ns

/-- The last node has no neighbour behind it. -/
theorem neighbours_none {P : Frame → Nat → Token → Token → Prop} {f : Frame} {position : Nat}
    (n : Option Node) : Neighbours P f position n none := by
  cases n with
  | none => trivial
  | some n => cases n <;> trivial

/-- A block is no neighbour of the token in front of it. -/
theorem neighbours_block {P : Frame → Nat → Token → Token → Prop} {f : Frame} {position : Nat}
    (n : Option Node) (interior : List Node) (span : Span) :
    Neighbours P f position n (some (.block interior span)) := by
  cases n with
  | none => trivial
  | some n => cases n <;> trivial

end Node

/-! ### Glue -/

/-- Whether the token can be right in front of something that would be read as a part of it. -/
def Token.clings (a : Token) : Bool := a.kind == .number || a.kind == .dot || a.kind == .colon

/-- Whether the token `b` is written right behind the token `a`, which is at the position. -/
def Frame.glues (f : Frame) (position : Nat) (a b : Token) : Bool :=
  (a.kind == .number && b.kind == .dot) ||
    ((a.kind == .dot || (a.kind == .colon && !f.isLabelColon position)) && !b.kind.isKeyword)

/-- Whether the relation holds of two tokens if they are glued. -/
def Frame.GluedBy (c : Casing) (M : Lexeme → Char → Prop) (f : Frame) (position : Nat)
    (a b : Token) : Prop :=
  f.glues position a b = true → ∀ e ∈ (c.apply b).head?, M (a.shownAs c) e

/-- Only tokens that cling are glued to the next one. -/
theorem Frame.clings_of_glues {f : Frame} {position : Nat} {a b : Token}
    (h : f.glues position a b = true) : a.clings = true := by
  simp only [Frame.glues, Token.clings, Bool.or_eq_true, Bool.and_eq_true] at h ⊢
  tauto

/-- Whether a token of the kind is written without a space in front of it. -/
def Kind.isJoined : Kind → Bool
  | .comma | .dot | .openParen | .closeParen => true
  | _ => false

/-- What is joined is a dot, or a mark in front of which nothing is needed. -/
theorem Kind.exists_mark_of_isJoined {k : Kind} (h : k.isJoined = true) :
    ∃ m, k.mark? = some m ∧
      (k = .dot ∧ m = '.' ∨ k ≠ .dot ∧ " (),;".toList.contains m = true) := by
  cases k <;> simp only [isJoined, Bool.false_eq_true] at h <;> exact ⟨_, rfl, by decide⟩

/-- Only one colon of a sequence is behind its label. -/
theorem Frame.isLabelColon_unique {f : Frame} {i j : Nat} (hi : f.isLabelColon i = true)
    (hj : f.isLabelColon j = true) : i = j := by
  simp only [Frame.isLabelColon, beq_iff_eq] at hi hj
  exact Option.some.inj (hi.symm.trans hj)

/-! ### The end of a draft -/

/-- What the end of a draft has to do with the node before the next one, which is at the position:
    what clings is at its end. -/
inductive Draft.Follows (c : Casing) (f : Frame) (d : Draft) : Nat → Bool → Option Node → Prop where
  | start {position : Nat} : d.lastLexeme? c = none → Follows c f d position false none
  | token {position : Nat} {a : Token} : (∀ x ∈ d.lastLexeme? c, x = a.shownAs c) →
      (a.clings = true → d.lastLexeme? c = some (a.shownAs c)) →
      Follows c f d (position + 1) (f.joinsNext position (.leaf a)) (some (.leaf a))
  | block {position : Nat} {interior : List Node} {span : Span} :
      d.lastLexeme? c = some ⟨.closeParen, [')']⟩ →
      Follows c f d (position + 1) false (some (.block interior span))

/-- What joins the next node is a comma, a dot, or a colon that does not belong to a label. -/
theorem Frame.joinsNext_leaf {f : Frame} {position : Nat} {a : Token}
    (h : f.joinsNext position (.leaf a) = true) :
    a.kind = .comma ∨ a.kind = .dot ∨ a.kind = .colon ∧ f.isLabelColon position = false := by
  unfold Frame.joinsNext Node.kind? at h
  split at h
  · rename_i hk
    exact .inr (.inl (Option.some.inj hk))
  · rename_i hk
    exact .inl (Option.some.inj hk)
  · rename_i hk
    exact .inr (.inr ⟨Option.some.inj hk, by simpa using h⟩)
  · exact absurd h (by decide)

/-- A token joins the next one where its kind does. -/
theorem Frame.joinsNext_of_kind {f : Frame} {position : Nat} {a : Token}
    (h : a.kind = .dot ∨ a.kind = .colon ∧ f.isLabelColon position = false) :
    f.joinsNext position (.leaf a) = true := by
  rcases h with h | ⟨h, hl⟩ <;> simp [Frame.joinsNext, Node.kind?, h]
  exact hl

/-- A mark that is joined fits behind every lexeme, but a dot does not behind a number. -/
theorem IsSeam.before_joined {c : Casing} {M : Lexeme → Char → Prop} (hM : IsSeam M) {x : Lexeme}
    (ho : x.isOpen = false) (hl : x.isLineComment = false) {t : Token} (ht : t.IsMarked)
    (hj : t.kind.isJoined = true) (hdot : t.kind ≠ .dot ∨ x.kind ≠ .number) :
    ∀ e ∈ (c.apply t).head?, M x e := by
  obtain ⟨m, hm, hcases⟩ := Kind.exists_mark_of_isJoined hj
  intro e he
  rw [c.apply_of_mark? ht hm, ht m hm] at he
  obtain rfl : m = e := by simpa using he
  rcases hcases with ⟨hk, rfl⟩ | ⟨-, hmark⟩
  · exact hM.before_dot ho hl (hdot.resolve_left fun h => h hk)
  · exact hM.before_mark ho hl hmark

/-- A colon fits behind everything but another colon. -/
theorem IsSeam.before_colonToken {c : Casing} {M : Lexeme → Char → Prop} (hM : IsSeam M)
    {x : Lexeme} (ho : x.isOpen = false) (hl : x.isLineComment = false) {t : Token}
    (ht : t.IsMarked) (hk : t.kind = .colon) (hx : x.kind ≠ .colon) :
    ∀ e ∈ (c.apply t).head?, M x e := by
  have hm : t.kind.mark? = some ':' := by rw [hk]; rfl
  intro e he
  rw [c.apply_of_mark? ht hm, ht ':' hm] at he
  obtain rfl : ':' = e := by simpa using he
  exact hM.before_colon ho hl hx

/-- A keyword starts like a word. -/
theorem startsWord_of_isKeyword {x : Lexeme} (hx : x.Proper) (hk : x.kind.isKeyword = true) :
    ∀ e ∈ x.text.head?, startsWord e = true := by
  cases hx.form with
  | word hc => simpa using hc
  | @punctuation e k rest hp =>
    rw [punctuationKind?_eq_some_iff] at hp
    cases k <;> simp [Kind.mark?, Kind.isKeyword] at hp hk
  | _ => simp [Kind.isKeyword] at hk

namespace Draft

variable {c : Casing} {M : Lexeme → Char → Prop} {f : Frame} {d : Draft} {position : Nat}
  {joined : Bool} {prev : Option Node} {t : Token}

/-- A token that is written right behind the draft fits there exactly when the relation holds of it
    and of the token that it is glued to. -/
theorem Follows.fits_iff (hM : IsSeam M) (hd : d.IsClean c)
    (hf : Follows c f d position joined prev) (ht : t.IsMarked) (hp : (t.shownAs c).Proper)
    (hdirect : t.kind.isJoined = true ∨ joined = true ∨
      t.kind = .colon ∧ f.isLabelColon position = true) :
    d.Fits c M (c.apply t)
      ↔ Node.Neighbours (Frame.GluedBy c M) f (position - 1) prev (some (.leaf t)) := by
  cases hf with
  | start hlast =>
    refine iff_of_true (fun x hx => ?_) trivial
    rw [hlast] at hx
    exact absurd hx (by simp)
  | block hlast =>
    refine iff_of_true (fun x hx => ?_) trivial
    obtain rfl := Option.some.inj (hlast.symm.trans hx)
    obtain ⟨ho, hl⟩ := hd.of_mem_lastLexeme? hx
    rcases hdirect with h | h | h
    · exact hM.before_joined ho hl ht h (.inr (by simp))
    · exact absurd h (by decide)
    · exact hM.before_colonToken ho hl ht h.1 (by simp)
  | @token q a hlast hcling =>
    rw [Nat.add_sub_cancel]
    change _ ↔ f.GluedBy c M q a t
    by_cases hg : f.glues q a t = true
    · have hx := hcling (Frame.clings_of_glues hg)
      rw [Fits, hx, Frame.GluedBy]
      simp [hg]
    · refine iff_of_true (fun x hx => ?_) fun h => absurd h hg
      obtain rfl := hlast x hx
      obtain ⟨ho, hl⟩ := hd.of_mem_lastLexeme? hx
      simp only [Frame.glues, Bool.or_eq_true, Bool.and_eq_true, beq_iff_eq, Bool.not_eq_true',
        not_or, not_and, Bool.not_eq_false] at hg
      obtain ⟨hnumber, hother⟩ := hg
      by_cases hj : t.kind.isJoined = true
      · refine hM.before_joined ho hl ht hj ?_
        by_cases hk : a.kind = .number
        · exact .inl (hnumber hk)
        · exact .inr hk
      · by_cases hjoin : f.joinsNext q (.leaf a) = true
        · -- What joins the next token is a comma, or it is in front of a keyword.
          rcases Frame.joinsNext_leaf hjoin with hk | hk
          · exact fun e _ => hM.after_mark (.inr hk)
          · intro e he
            have hkey : t.kind.isKeyword = true := hother (hk.imp id fun h => ⟨h.1, h.2⟩)
            exact hM.before_word (hk.imp id And.left) (startsWord_of_isKeyword hp hkey e he)
        · obtain ⟨hk, hlabel⟩ := (hdirect.resolve_left hj).resolve_left hjoin
          refine hM.before_colonToken ho hl ht hk fun hak => hjoin ?_
          -- Of two colons, only one belongs to the label.
          refine Frame.joinsNext_of_kind (.inr ⟨hak, ?_⟩)
          by_contra hq
          rw [Bool.not_eq_false] at hq
          have := Frame.isLabelColon_unique hq hlabel
          omega

/-- Tokens that are not written right behind the draft are not glued to anything. -/
theorem Follows.neighbours (hf : Follows c f d position joined prev) (hk : t.kind ≠ .dot)
    (hj : joined = false ∨ t.kind.isKeyword = true) :
    Node.Neighbours (Frame.GluedBy c M) f (position - 1) prev (some (.leaf t)) := by
  cases hf with
  | start => trivial
  | block => trivial
  | @token q a =>
    rw [Nat.add_sub_cancel]
    intro hg
    simp only [Frame.glues, Bool.or_eq_true, Bool.and_eq_true, beq_iff_eq, Bool.not_eq_true',
      hk, and_false, false_or] at hg
    rcases hj with hj | hj
    · rw [Frame.joinsNext_of_kind (hg.1.imp id fun h => ⟨h.1, h.2⟩)] at hj
      exact absurd hj (by decide)
    · exact absurd (hj.symm.trans hg.2) (by decide)

end Draft

/-! ### Tokens -/

/-- Whether the token, in the chosen case, is read when it stands alone, and closed. -/
def Token.IsClosed (c : Casing) (t : Token) : Prop :=
  (t.shownAs c).Proper ∧ (t.shownAs c).isOpen = false

instance (c : Casing) (t : Token) : Decidable (t.IsClosed c) :=
  inferInstanceAs (Decidable (_ ∧ _))

/-- A token without a case is shown as the lexeme that it is. -/
theorem Token.shownAs_of_apply {c : Casing} {t : Token} (h : c.apply t = t.text) :
    t.shownAs c = t.lexeme := by
  rw [shownAs, h]
  rfl

/-- Comments have no case. -/
theorem Token.isLineComment_shownAs (c : Casing) (t : Token) :
    (t.shownAs c).isLineComment = t.isLineComment := by
  by_cases hk : t.kind = .comment
  · rw [shownAs_of_apply (c.apply_of_comment hk)]
    rfl
  · have hkind : (t.kind == .comment) = false := beq_eq_false_iff_ne.mpr hk
    simp [Lexeme.isLineComment, isLineComment, isComment, shownAs, hkind]

/-- A token that is closed in its case makes a closed piece. -/
theorem Token.IsClosed.cased {c : Casing} {t : Token} (h : t.IsClosed c) :
    (Piece.cased t).IsClosed c := by
  intro x hx
  obtain rfl := Option.some.inj hx
  exact h

/-- A token that has no case makes a closed piece. -/
theorem Token.IsClosed.verbatim {c : Casing} {t : Token} (h : t.IsClosed c)
    (happly : c.apply t = t.text) : (Piece.verbatim t).IsClosed c := by
  intro x hx
  obtain rfl := Option.some.inj hx
  rwa [Token.IsClosed, Token.shownAs_of_apply happly] at h

/-- Keywords do not cling. -/
theorem Token.clings_of_isKeyword {t : Token} (h : t.kind.isKeyword = true) : t.clings = false := by
  cases hk : t.kind <;> simp [hk, Kind.isKeyword, clings] at h ⊢

namespace Draft

variable {c : Casing} {M : Lexeme → Char → Prop} {f : Frame} {d d' : Draft} {position : Nat}
  {joined : Bool} {prev : Option Node} {t : Token} {s : Spacing}

/-- What becomes of a clean draft to which something is added: it is clean again, and the relation
    holds in its lines when it did before and the condition holds. -/
structure Adds (c : Casing) (M : Lexeme → Char → Prop) (d d' : Draft) (condition : Prop) :
    Prop where
  clean : d'.IsClean c
  ends : d'.EndsClean c
  linked : d'.Linked c M ↔ d.Linked c M ∧ condition

/-- The condition can be stated in another way. -/
theorem Adds.congr {A B : Prop} (h : Adds c M d d' A) (hiff : A ↔ B) : Adds c M d d' B :=
  ⟨h.clean, h.ends, h.linked.trans (and_congr_right fun _ => hiff)⟩

/-- What is added in two steps asks for both conditions. -/
theorem Adds.trans {d'' : Draft} {A B : Prop} (h : Adds c M d d' A) (h' : Adds c M d' d'' B) :
    Adds c M d d'' (A ∧ B) :=
  ⟨h'.clean, h'.ends, by rw [h'.linked, h.linked, and_assoc]⟩

/-- What is added to a draft in which the relation holds just as before. -/
theorem Adds.of_linked_iff {e : Draft} {A : Prop} (h : Adds c M d d' A)
    (hiff : d.Linked c M ↔ e.Linked c M) : Adds c M e d' A :=
  ⟨h.clean, h.ends, by rw [h.linked, hiff]⟩

/-- A new line asks for nothing more. -/
theorem Adds.startLine {A : Prop} (h : Adds c M d d' A) (s : Spacing) (levels : Int) :
    Adds c M d (d'.startLine s levels) A :=
  ⟨h.clean.closed.startLine s levels, h.ends.startLine s levels,
    (h.clean.closed.linked_startLine s levels).trans h.linked⟩

/-- What is put has to fit. -/
theorem IsClean.adds_put (h : d.IsClean c) {p : Piece} (hp : p.IsClosed c) {x : Lexeme}
    (hx : x ∈ p.lexeme? c) (hl : x.isLineComment = false) :
    Adds c M d (d.put p) (d.Fits c M (p.shown c)) := by
  have hcomment : p.isLineComment c = false := by
    rwa [Piece.isLineComment, show p.lexeme? c = some x from hx, Option.any_some]
  exact ⟨h.put hp hcomment, h.endsClean_put hp hcomment hx, linked_put⟩

/-- A parenthesis always fits. -/
theorem IsClean.adds_mark (hM : IsSeam M) (h : d.IsClean c) {p : Piece} {k : Kind} {m : Char}
    (hp : p.lexeme? c = some ⟨k, [m]⟩) (hk : k.mark? = some m)
    (hm : " (),;".toList.contains m = true) : Adds c M d (d.put p) True := by
  have hcomment : Lexeme.isLineComment ⟨k, [m]⟩ = false := by
    cases k <;> simp [Kind.mark?] at hk <;> rfl
  refine (h.adds_put (Piece.isClosed_of_mark? hk hp) hp hcomment).congr (iff_true_intro ?_)
  intro x hx e he
  obtain ⟨ho, hl⟩ := h.of_mem_lastLexeme? hx
  rw [Piece.shown_of_lexeme? hp] at he
  obtain rfl : m = e := by simpa using he
  exact hM.before_mark ho hl hm

/-- The token that was put last is in front of the next one. -/
theorem follows_put {p : Piece} (hp : p.IsClosed c) (hx : t.shownAs c ∈ p.lexeme? c) :
    Follows c f (d.put p) (position + 1) (f.joinsNext position (.leaf t)) (some (.leaf t)) := by
  have hlast : (d.put p).lastLexeme? c = some (t.shownAs c) := lastLexeme?_put hp hx
  exact .token (fun x hx => Option.some.inj (hx.symm.trans hlast)) fun _ => hlast

/-- On a new line nothing is in front of the next token, unless the token behind which it was
    started clings. -/
theorem follows_startLine (ht : t.clings = false) (levels : Int) :
    Follows c f (d.startLine s levels) (position + 1) (f.joinsNext position (.leaf t))
      (some (.leaf t)) := by
  have hlast : (d.startLine s levels).lastLexeme? c = none := lastLexeme?_startLine d s levels
  refine .token (fun x hx => ?_) fun h => absurd (h.symm.trans ht) (by decide)
  rw [hlast] at hx
  exact absurd hx (by simp)

/-- Where there is nothing to be right behind, everything fits. -/
theorem fits_of_lastLexeme? (h : d.lastLexeme? c = none) (w : Text) : d.Fits c M w := by
  intro x hx
  rw [h] at hx
  exact absurd hx (by simp)

/-! The lemmas below say of each form of token that it fits when it is not glued to anything that it
does not go with. -/

/-- The condition on a token that comes behind another node. -/
abbrev Joins (c : Casing) (M : Lexeme → Char → Prop) (f : Frame) (position : Nat)
    (prev : Option Node) (t : Token) : Prop :=
  Node.Neighbours (Frame.GluedBy c M) f (position - 1) prev (some (.leaf t))

/-- A word fits exactly when it goes with what it is glued to. -/
theorem adds_addWord (hM : IsSeam M) (hd : d.IsClean c)
    (hf : Follows c f d position joined prev) (hmarked : t.IsMarked) (ht : t.IsClosed c)
    (hdot : t.kind ≠ .dot) (hcomment : t.isLineComment = false) :
    Adds c M d (d.addWord s f position joined t) (Joins c M f position prev t) ∧
      Follows c f (d.addWord s f position joined t) (position + 1)
        (f.joinsNext position (.leaf t)) (some (.leaf t)) := by
  have hl : (t.shownAs c).isLineComment = false := by rw [t.isLineComment_shownAs, hcomment]
  unfold addWord
  extract_lets keyword breaks opened written
  -- A new line, a space or nothing comes first. The token is glued in the last case only.
  have hopened : opened.IsClean c ∧ (opened.Linked c M ↔ d.Linked c M) ∧
      (opened.Fits c M (c.apply t) ↔ Joins c M f position prev t) := by
    by_cases hb : breaks = true
    · have hk : t.kind.isKeyword = true := by
        simp only [breaks, keyword, Bool.and_eq_true] at hb
        exact hb.1.1
      simp only [opened, if_pos hb]
      exact ⟨hd.closed.startLine s _, hd.closed.linked_startLine s _,
        iff_of_true (fits_of_lastLexeme? (lastLexeme?_startLine d s _) _)
          (hf.neighbours hdot (.inr hk))⟩
    · simp only [opened, if_neg hb, separate]
      split
      · rename_i hdirect
        refine ⟨hd, Iff.rfl, hf.fits_iff hM hd hmarked ht.1 ?_⟩
        simpa using Or.inr hdirect
      · rename_i hspace
        simp only [Bool.or_eq_true, not_or, Bool.not_eq_true] at hspace
        exact ⟨hd.spaces d.spaces_space, hd.linked_spaces hM d.spaces_space,
          iff_of_true (fits_of_lastLexeme? hd.lastLexeme?_space _)
            (hf.neighbours hdot (.inl hspace.1))⟩
  obtain ⟨hclean, hlinked, hfits⟩ := hopened
  have hwritten : Adds c M d written (Joins c M f position prev t) :=
    ((hclean.adds_put ht.cased rfl hl).of_linked_iff hlinked).congr hfits
  split
  · rename_i hbreak
    have hk : t.kind.isKeyword = true := by
      simp only [breaks, keyword, Bool.and_eq_true, Bool.or_eq_true] at hbreak
      tauto
    exact ⟨hwritten.startLine s 1, follows_startLine (Token.clings_of_isKeyword hk) 1⟩
  · exact ⟨hwritten, follows_put ht.cased rfl⟩

/-- A comment fits exactly when it goes with what it is glued to. -/
theorem adds_addComment (hM : IsSeam M) (hd : d.IsClean c)
    (hf : Follows c f d position joined prev) (hmarked : t.IsMarked) (ht : t.IsClosed c)
    (hk : t.kind = .comment) :
    Adds c M d (d.addComment s joined t) (Joins c M f position prev t) ∧
      Follows c f (d.addComment s joined t) (position + 1) (f.joinsNext position (.leaf t))
        (some (.leaf t)) := by
  have happly := c.apply_of_comment hk
  have hverbatim := ht.verbatim happly
  have hx : t.shownAs c ∈ (Piece.verbatim t).lexeme? c := by
    rw [Token.shownAs_of_apply happly]
    rfl
  have hshown : (Piece.verbatim t).shown c = c.apply t := happly.symm
  unfold addComment
  extract_lets written
  have hopened : (d.separate joined false).IsClean c ∧
      ((d.separate joined false).Linked c M ↔ d.Linked c M) ∧
      ((d.separate joined false).Fits c M (c.apply t) ↔ Joins c M f position prev t) := by
    unfold separate
    split
    · rename_i hdirect
      refine ⟨hd, Iff.rfl, hf.fits_iff hM hd hmarked ht.1 (.inr (.inl ?_))⟩
      simpa using hdirect
    · rename_i hspace
      exact ⟨hd.spaces d.spaces_space, hd.linked_spaces hM d.spaces_space,
        iff_of_true (fits_of_lastLexeme? hd.lastLexeme?_space _)
          (hf.neighbours (by simp [hk]) (.inl (by simpa using hspace)))⟩
  obtain ⟨hclean, hlinked, hfits⟩ := hopened
  split
  · -- The new line takes the comment out of the reach of what comes next.
    have hclosed : ({ written with afterLineComment := true } : Draft).IsClosed c :=
      hclean.closed.put hverbatim
    refine ⟨⟨hclosed.startLine s 0, fun hflag => ?_, ?_⟩,
      follows_startLine (by simp [Token.clings, hk]) 0⟩
    · exact absurd (show true = false from hflag) (by decide)
    rw [hclosed.linked_startLine s 0, ← hlinked, ← hfits, ← hshown]
    show written.Linked c M ↔ _
    exact linked_put
  · rename_i hline
    have hl : (t.shownAs c).isLineComment = false := by
      rw [t.isLineComment_shownAs]
      simpa using hline
    refine ⟨((hclean.adds_put hverbatim hx hl).of_linked_iff hlinked).congr ?_,
      follows_put hverbatim hx⟩
    rw [hshown]
    exact hfits

/-- A mark that has no space in front of it fits exactly when it goes with what it is glued to. -/
theorem adds_addMark (hM : IsSeam M) (hd : d.IsClean c)
    (hf : Follows c f d position joined prev) (hmarked : t.IsMarked) (ht : t.IsClosed c)
    (hk : t.kind.isJoined = true) :
    Adds c M d (d.put (.verbatim t)) (Joins c M f position prev t) ∧
      Follows c f (d.put (.verbatim t)) (position + 1) (f.joinsNext position (.leaf t))
        (some (.leaf t)) := by
  have happly : c.apply t = t.text := by
    cases hkind : t.kind <;> simp only [hkind, Kind.isJoined, Bool.false_eq_true] at hk <;>
      exact c.apply_of_mark? hmarked (by rw [hkind]; rfl)
  have hverbatim := ht.verbatim happly
  have hx : t.shownAs c ∈ (Piece.verbatim t).lexeme? c := by
    rw [Token.shownAs_of_apply happly]
    rfl
  have hl : (t.shownAs c).isLineComment = false := by
    rw [t.isLineComment_shownAs]
    cases hkind : t.kind <;>
      simp [hkind, Kind.isJoined, Token.isLineComment, Token.isComment] at hk ⊢
  refine ⟨(hd.adds_put hverbatim hx hl).congr ?_, follows_put hverbatim hx⟩
  rw [show (Piece.verbatim t).shown c = c.apply t from happly.symm]
  exact hf.fits_iff hM hd hmarked ht.1 (.inl hk)

/-- A token fits exactly when it goes with what it is glued to. -/
theorem adds_addToken (hM : IsSeam M) (hd : d.IsClean c)
    (hf : Follows c f d position joined prev) (hmarked : t.IsMarked) (ht : t.IsClosed c) :
    Adds c M d (d.addToken s f position joined t) (Joins c M f position prev t) ∧
      Follows c f (d.addToken s f position joined t) (position + 1)
        (f.joinsNext position (.leaf t)) (some (.leaf t)) := by
  unfold addToken
  split
  · rename_i hk
    obtain ⟨hadds, hfollows⟩ := adds_addMark hM hd hf hmarked ht (by rw [hk]; rfl)
    unfold addComma
    extract_lets written
    split
    · exact ⟨hadds.startLine s 0, follows_startLine (by simp [Token.clings, hk]) 0⟩
    · exact ⟨hadds, hfollows⟩
  · rename_i hk
    exact adds_addMark hM hd hf hmarked ht (by rw [hk]; rfl)
  · rename_i hk
    exact adds_addMark hM hd hf hmarked ht (by rw [hk]; rfl)
  · rename_i hk
    exact adds_addMark hM hd hf hmarked ht (by rw [hk]; rfl)
  · rename_i hk
    exact adds_addComment hM hd hf hmarked ht hk
  · rename_i hdot _ _ hk
    exact adds_addWord hM hd hf hmarked ht (fun h => hdot h)
      (by simp [Token.isLineComment, Token.isComment, show t.kind ≠ .comment from fun h => hk h])

/-! ### Blocks -/

/-- A fault that is noted leaves a draft clean. -/
theorem isClean_note (hd : d.IsClean c) (fault : Option StructureError) :
    (d.note fault).IsClean c :=
  ⟨hd.closed, hd.current⟩

/-- A parenthesis that closes a block is at the end of it. -/
theorem lastLexeme?_put_closeParen (d : Draft) :
    (d.put .closeParen).lastLexeme? c = some ⟨.closeParen, [')']⟩ :=
  lastLexeme?_put (Piece.isClosed_closeParen c) rfl

/-- Everything fits behind a parenthesis that opens a block. -/
theorem fits_put_openParen (hM : IsSeam M) (d : Draft) (w : Text) :
    (d.put .openParen).Fits c M w := by
  intro x hx e _
  have hlast : (d.put .openParen).lastLexeme? c = some ⟨.openParen, ['(']⟩ :=
    lastLexeme?_put (Piece.isClosed_openParen c) rfl
  obtain rfl := Option.some.inj (hlast.symm.trans hx)
  exact hM.after_mark (.inl rfl)

/-- The lines of a block fit between its parentheses. -/
theorem adds_insert (hM : IsSeam M) (hd : d.IsClean c) {ls : List Line}
    (hls : ∀ l ∈ ls, ∀ p ∈ l, p.IsClosed c) :
    Adds c M d ((d.insert s ls).put .closeParen) (∀ l ∈ ls, Line.Linked c M l) := by
  have hclean := hd.closed.insert s hls
  have hadds : Adds c M (d.insert s ls) ((d.insert s ls).put .closeParen) True :=
    hclean.adds_mark hM rfl rfl (by decide)
  refine ⟨hadds.clean, hadds.ends, ?_⟩
  rw [hadds.linked, IsClosed.linked_insert s hls, and_true]

/-- A line fits between the parentheses of a block. -/
theorem adds_putAll (hM : IsSeam M) (hd : (d.put .openParen).IsClean c) {l : Line}
    (hl : ∀ p ∈ l, p.IsClosed c) (hc : ∀ p ∈ l, p.isLineComment c = false) :
    Adds c M (d.put .openParen) (((d.put .openParen).putAll l).put .closeParen)
      (Line.Linked c M l) := by
  have hclean := hd.putAll hl hc
  have hadds : Adds c M ((d.put .openParen).putAll l)
      (((d.put .openParen).putAll l).put .closeParen) True :=
    hclean.adds_mark hM rfl rfl (by decide)
  refine ⟨hadds.clean, hadds.ends, ?_⟩
  rw [hadds.linked, linked_putAll, and_true, and_iff_left (fits_put_openParen hM d _)]

/-- The relation holds in a draft without lines. -/
theorem linked_start : start.Linked c M := by
  intro l hl
  obtain rfl : l = [] := by simpa [lines, start] using hl
  exact Line.linked_nil

/-- A block fits exactly when its interior does. -/
theorem adds_blockStep (hM : IsSeam M) (hd : d.IsClean c) {offset : Int} {interior : List Node}
    (hne : interior ≠ []) (hclosed : ∀ t ∈ Node.allTokens interior, t.IsClosed c)
    {inner e : Draft} {A : Prop} (hinner : Adds c M .start inner A)
    (hsingle : ∀ t, interior = [.leaf t] → A) (h : d.BlockStep s interior offset inner e) :
    Adds c M d e A ∧ e.lastLexeme? c = some ⟨.closeParen, [')']⟩ := by
  have hlines : ∀ l ∈ inner.finish, ∀ p ∈ l, p.IsClosed c := fun l hl =>
    hinner.clean.closed l (mem_lines_of_mem_finish hl)
  have hlinked : (∀ l ∈ inner.finish, Line.Linked c M l) ↔ A := by
    rw [hinner.clean.closed.linked_finish, hinner.linked, and_iff_right linked_start]
  -- The first parenthesis fits, whatever the spaces are that come in front of it.
  have hopened : ∀ {e : Draft}, d.Spaces e →
      Adds c M d ((e.note inner.fault).put .openParen) True := fun {e} he => by
    have hlinked : e.Linked c M ↔ d.Linked c M := hd.linked_spaces hM he
    exact ((isClean_note (hd.spaces he) inner.fault).adds_mark hM rfl rfl
      (by decide)).of_linked_iff hlinked
  cases h with
  | empty hnil => exact absurd hnil hne
  | single t hleaf hline =>
    have ht : t.IsClosed c := hclosed t (by simp [hleaf])
    have hl : (t.shownAs c).isLineComment = false := by rw [t.isLineComment_shownAs, hline]
    have hopened : Adds c M d (d.put .openParen) True := hd.adds_mark hM rfl rfl (by decide)
    have hwritten := hopened.clean.adds_put (M := M) ht.cased rfl hl
    have hput := (hopened.trans hwritten).trans
      (hwritten.clean.adds_mark (p := .closeParen) hM rfl rfl (by decide))
    have hfits := fits_put_openParen (c := c) hM d ((Piece.cased t).shown c)
    exact ⟨hput.congr (iff_of_true ⟨⟨trivial, hfits⟩, trivial⟩ (hsingle t hleaf)),
      lastLexeme?_put_closeParen _⟩
  | inLine line _ hfinish =>
    have hcomment := hinner.ends.finish hinner.clean.current line (by simp [hfinish])
    have hput := adds_putAll hM (hopened .joined).clean (hlines line (by simp [hfinish])) hcomment
    refine ⟨((hopened .joined).trans hput).congr ?_, lastLexeme?_put_closeParen _⟩
    rw [true_and, ← hlinked, hfinish]
    simp
  | lines _ hspaces =>
    have hinserted := adds_insert (s := s) hM (hopened hspaces).clean hlines
    exact ⟨((hopened hspaces).trans hinserted).congr (by rw [true_and, hlinked]),
      lastLexeme?_put_closeParen _⟩

/-! ### Nodes -/

mutual

/-- A node fits exactly when no token in it is glued to one that it does not go with. -/
theorem adds_addNode (hM : IsSeam M) (s : Spacing) (f : Frame) (position : Nat) (joined : Bool)
    (prev : Option Node) (d : Draft) (hd : d.IsClean c)
    (hf : Follows c f d position joined prev) : (n : Node) → (∀ t ∈ n.tokens, t.IsMarked) →
    (∀ t ∈ n.tokens, t.IsClosed c) → n.IsFull →
    Adds c M d (d.addNode s f position joined n)
        (Node.Neighbours (Frame.GluedBy c M) f (position - 1) prev (some n) ∧
          n.Pairs (Frame.GluedBy c M)) ∧
      Follows c f (d.addNode s f position joined n) (position + 1) (f.joinsNext position n)
        (some n)
  | .leaf t, hmarked, ht, _ => by
    obtain ⟨hadds, hfollows⟩ := adds_addToken (s := s) hM hd hf (hmarked t (by simp [Node.tokens]))
      (ht t (by simp [Node.tokens]))
    rw [addNode]
    exact ⟨hadds.congr (by simp [Node.Pairs]), hfollows⟩
  | .block interior span, hmarked, ht, hfull => by
    have hinterior : ∀ t ∈ Node.allTokens interior, t.IsClosed c := fun t hmem =>
      ht t (by simp [Node.tokens, hmem])
    have hinner := adds_addNodes hM ((blockForm f interior).spacing s) (Frame.ofNodes interior) 0
      false none .start isClean_start endsClean_start (.start rfl) interior
      (fun t hmem => hmarked t (by simp [Node.tokens, hmem])) hinterior hfull.2
    have hadds := adds_blockStep hM hd hfull.1 hinterior hinner
      (by
        rintro t rfl
        simp [Node.AllPairs, Node.Pairs, Node.Neighbours])
      (d.blockStep_addBlock s f interior span.start _)
    rw [addNode]
    refine ⟨hadds.1.congr ?_, .block hadds.2⟩
    rw [and_iff_right (Node.neighbours_block prev interior span), Node.Pairs]
    exact and_iff_right trivial

/-- Nodes fit exactly when no token in them is glued to one that it does not go with. -/
theorem adds_addNodes (hM : IsSeam M) (s : Spacing) (f : Frame) (position : Nat) (joined : Bool)
    (prev : Option Node) (d : Draft) (hd : d.IsClean c) (hends : d.EndsClean c)
    (hf : Follows c f d position joined prev) :
    (ns : List Node) → (∀ t ∈ Node.allTokens ns, t.IsMarked) →
    (∀ t ∈ Node.allTokens ns, t.IsClosed c) → Node.AllFull ns →
    Adds c M d (d.addNodes s f position joined ns)
      (Node.Neighbours (Frame.GluedBy c M) f (position - 1) prev ns.head? ∧
        Node.AllPairs (Frame.GluedBy c M) f position ns)
  | [], _, _, _ => by
    rw [addNodes]
    exact ⟨hd, hends, by simp [Node.neighbours_none, Node.AllPairs]⟩
  | n :: rest, hmarked, ht, hfull => by
    obtain ⟨hadds, hfollows⟩ := adds_addNode hM s f position joined prev d hd hf n
      (fun t hmem => hmarked t (by simp [Node.allTokens, hmem]))
      (fun t hmem => ht t (by simp [Node.allTokens, hmem])) hfull.1
    have hrest := adds_addNodes hM s f (position + 1) (f.joinsNext position n) (some n) _ hadds.clean
      hadds.ends hfollows rest (fun t hmem => hmarked t (by simp [Node.allTokens, hmem]))
      (fun t hmem => ht t (by simp [Node.allTokens, hmem])) hfull.2
    rw [addNodes]
    refine (hadds.trans hrest).congr ?_
    rw [Nat.add_sub_cancel, List.head?_cons, Node.AllPairs, and_assoc]

end

end Draft

/-- The lines of nodes are closed, the last one with no comment that takes in what comes behind it,
    and the relation holds in them exactly when it holds of the tokens that are glued. -/
theorem Node.linked_layOut {c : Casing} {M : Lexeme → Char → Prop} (hM : IsSeam M) {s : Spacing}
    {ns : List Node} {ls : List Line} (hmarked : ∀ t ∈ allTokens ns, t.IsMarked)
    (ht : ∀ t ∈ allTokens ns, t.IsClosed c) (hfull : AllFull ns) (h : layOut s ns = .ok ls) :
    (∀ l ∈ ls, ∀ p ∈ l, p.IsClosed c) ∧
      (∀ l ∈ ls.getLast?, ∀ p ∈ l, p.isLineComment c = false) ∧
      ((∀ l ∈ ls, Line.Linked c M l)
        ↔ AllPairs (Frame.GluedBy c M) (Frame.ofNodes ns) 0 ns) := by
  unfold layOut at h
  split at h
  · exact absurd h (by simp)
  · obtain rfl := Except.ok.inj h
    have hadds := Draft.adds_addNodes hM s (Frame.ofNodes ns) 0 false none .start
      Draft.isClean_start Draft.endsClean_start (.start rfl) ns hmarked ht hfull
    refine ⟨fun l hl => hadds.clean.closed l (Draft.mem_lines_of_mem_finish hl),
      hadds.ends.finish hadds.clean.current, ?_⟩
    show (∀ l ∈ (Draft.start.addNodes s (Frame.ofNodes ns) 0 false ns).finish, _) ↔ _
    rw [hadds.clean.closed.linked_finish, hadds.linked, and_iff_right Draft.linked_start]
    exact and_iff_right trivial

end SqlScript
