import SqlScript.Proofs.Layout.Gather
import SqlScript.Proofs.Node.Grammar
import SqlScript.Proofs.Token.Tiling

namespace SqlScript

/-!
# Parentheses and their counterparts

The nodes of a text are its tokens in another form: each block stands for a pair of parentheses and
what is between them, and no parenthesis is left but the pairs with nothing in them. Where a
parenthesis has no counterpart there are no nodes, and the first such parenthesis is told that
closes nothing, or else the last one that nothing closes.

* `Token.AllClosed` — whether each parenthesis that is opened is closed;
* `Token.LacksCounterpart` — the parenthesis that is told when some have no counterpart;
* `Node.allBlocks` and `Node.IsBlockOf` — the blocks at all depths, and what they stand for;
* `Node.ofTokens_scan` — the tokens of a text make nodes exactly when they are balanced; what the
  nodes are, and what is told when there are none.
-/

/-! ### Parentheses without a counterpart -/

namespace Token

/-- Whether one of the tokens closes a parenthesis that was opened in front of them. -/
def ClosedIn (ts : List Token) : Prop :=
  ∃ inner q rest, ts = inner ++ q :: rest ∧ Balanced inner ∧ q.kind = .closeParen

/-- Whether each parenthesis that the tokens open is closed by one of those behind it. -/
def AllClosed : List Token → Prop
  | [] => True
  | t :: ts => (t.kind = .openParen → ClosedIn ts) ∧ AllClosed ts

/-- Whether there is a closing parenthesis with no parenthesis open in front of it. -/
def ClosesNothing (ts : List Token) : Prop :=
  ∃ before q after, ts = before ++ q :: after ∧ q.kind = .closeParen ∧ AllClosed before

/-- The parenthesis that is told when some have no counterpart. -/
inductive LacksCounterpart (ts : List Token) : StructureError → Prop where
  /-- The first closing one with no parenthesis open in front of it. -/
  | unexpectedClose {before after : List Token} {q : Token} (hts : ts = before ++ q :: after)
      (hq : q.kind = .closeParen) (hopen : AllClosed before) (hfirst : ¬ClosesNothing before) :
      LacksCounterpart ts (.unexpectedClose q.span.start)
  /-- Where there is none of these, the last opening one that is never closed. -/
  | unclosedOpen {before after : List Token} {p : Token} (hnone : ¬ClosesNothing ts)
      (hts : ts = before ++ p :: after) (hp : p.kind = .openParen) (hopen : ¬ClosedIn after)
      (hlast : AllClosed after) : LacksCounterpart ts (.unclosedOpen p.span.start)

/-- What closes a parenthesis closes it whatever follows. -/
theorem ClosedIn.append {ts : List Token} (h : ClosedIn ts) (us : List Token) :
    ClosedIn (ts ++ us) := by
  obtain ⟨inner, q, rest, rfl, hinner, hq⟩ := h
  exact ⟨inner, q, rest ++ us, by rw [List.append_assoc, List.cons_append], hinner, hq⟩

/-- Two parts that close what they open make one that does. -/
theorem AllClosed.append {ts us : List Token} (h : AllClosed ts) (h' : AllClosed us) :
    AllClosed (ts ++ us) := by
  induction ts with
  | nil => exact h'
  | cons t ts ih => exact ⟨fun ht => (h.1 ht).append us, ih h.2⟩

/-- Where all is closed, it is in the second one of two parts. -/
theorem AllClosed.of_append {ts us : List Token} (h : AllClosed (ts ++ us)) : AllClosed us := by
  induction ts with
  | nil => exact h
  | cons t ts ih => exact ih h.2

/-- Balanced tokens close what they open. -/
theorem Balanced.allClosed {ts : List Token} (h : Balanced ts) : AllClosed ts := by
  induction h with
  | nil => trivial
  | token ho _ _ ih => exact ⟨fun h => absurd h ho, ih⟩
  | @pair p q inner rest _ hq hinner _ ihinner ihrest =>
    refine ⟨fun _ => ⟨inner, q, rest, rfl, hinner, hq⟩, ihinner.append ⟨fun ho => ?_, ihrest⟩⟩
    rw [hq] at ho
    exact absurd ho (by decide)

/-- Where all is closed that is opened, no more is opened than is closed. -/
theorem AllClosed.height_le {ts : List Token} (h : AllClosed ts) : height ts ≤ 0 := by
  induction hn : ts.length using Nat.strongRecOn generalizing ts with
  | ind n ih =>
    subst hn
    cases ts with
    | nil => exact Int.le_refl 0
    | cons t ts =>
      by_cases ho : t.kind = .openParen
      · -- What is between the parenthesis and the one that closes it adds nothing.
        obtain ⟨inner, q, rest, rfl, hinner, hq⟩ := h.1 ho
        have hafter : AllClosed rest := h.2.of_append.2
        have hrest := ih rest.length (by simp; omega) hafter rfl
        rw [height_cons, height_append, height_cons, rise_of_open ho, hinner.height_eq_zero,
          rise_of_close hq]
        omega
      · have hrest := ih ts.length (by simp) h.2 rfl
        have hrise : t.rise ≤ 0 := by
          by_cases hc : t.kind = .closeParen
          · rw [rise_of_close hc]
            decide
          · exact Int.le_of_eq (rise_of_ne ho hc)
        rw [height_cons]
        omega

/-- Where parentheses are open whenever one is closed, none closes nothing. -/
theorem StaysOpen.not_closesNothing {ts : List Token} (h : StaysOpen 0 ts) :
    ¬ClosesNothing ts := by
  rintro ⟨before, q, after, rfl, hq, hclosed⟩
  have hopen := (staysOpen_append.mp h).2.2.depth_nonneg
  have hheight := hclosed.height_le
  rw [rise_of_close hq] at hopen
  omega

/-- Balanced tokens close nothing in front of them. -/
theorem Balanced.not_closedIn {ts : List Token} (h : Balanced ts) : ¬ClosedIn ts := by
  rintro ⟨inner, q, rest, rfl, hinner, hq⟩
  have hopen := (staysOpen_append.mp (h.staysOpen (Int.le_refl 0))).2.2.depth_nonneg
  rw [rise_of_close hq, hinner.height_eq_zero] at hopen
  omega

end Token

/-- What is told when tokens make no nodes is the parenthesis that has no counterpart. -/
theorem Node.lacksCounterpart_of_ofTokens {ts : List Token} {e : StructureError}
    (h : ofTokens ts = .error e) : Token.LacksCounterpart ts e := by
  have hread := (Nesting.Reads.level .nil).addAll ts
  rw [List.nil_append, show Nesting.addAll ⟨[], []⟩ ts = .error e from h] at hread
  rcases hread with ⟨_, hok, -⟩ | ⟨before, q, after, hts, hbalanced, hq, he⟩ |
    ⟨n, before, p, after, hts, hbefore, hp, hbalanced, he⟩
  · exact absurd hok (by simp)
  · obtain rfl := Except.error.inj he
    exact .unexpectedClose hts hq hbalanced.allClosed
      (hbalanced.staysOpen (Int.le_refl 0)).not_closesNothing
  · obtain rfl := Except.error.inj he
    obtain ⟨ns, hns⟩ := exists_reads hbalanced
    have hall : Nesting.Reads ts ⟨⟨p, n.level⟩ :: n.pending, ns⟩ := hts ▸ .opened hbefore hp hns
    exact .unclosedOpen hall.staysOpen.not_closesNothing hts hp hbalanced.not_closedIn
      hbalanced.allClosed

/-! ### Blocks -/

namespace Node

/-- The place of a node. -/
def span : Node → Span
  | leaf t => t.span
  | block _ span => span

mutual

/-- The blocks of a node at all depths, which the node itself can be. -/
def blocks : Node → List (List Node × Span)
  | leaf _ => []
  | block interior span => (interior, span) :: allBlocks interior

/-- The blocks of nodes at all depths. -/
def allBlocks : List Node → List (List Node × Span)
  | [] => []
  | n :: rest => n.blocks ++ allBlocks rest

end

/-- Whether the parentheses among the nodes are pairs with nothing between them: behind each opening
    one there is a closing one, and in front of each closing one there is an opening one. -/
def ParensMeet (ns : List Node) : Prop :=
  ∀ before t after, ns = before ++ leaf t :: after →
    (t.kind = .openParen → ∃ q rest, after = leaf q :: rest ∧ q.kind = .closeParen) ∧
      (t.kind = .closeParen → ∃ front p, before = front ++ [leaf p] ∧ p.kind = .openParen)

/-- Whether a block stands for a pair of the parentheses of tokens with what is between them. -/
structure IsBlockOf (ts : List Token) (interior : List Node) (span : Span) : Prop where
  /-- There is something in it. -/
  nonempty : interior ≠ []
  /-- It takes the place from its opening parenthesis to the end of its closing one. -/
  exists_pair : ∃ before p q after,
    ts = before ++ p :: (allTokens interior ++ q :: after) ∧ p.kind = .openParen ∧
      q.kind = .closeParen ∧ span = ⟨p.span.start, q.span.stop⟩
  /-- All that is in it is inside of its place. -/
  inside : ∀ n ∈ interior, span.start < n.span.start ∧ n.span.stop < span.stop
  /-- What parentheses are left in it have nothing between them. -/
  parensMeet : ParensMeet interior

/-- A node that is no parenthesis can stand in front of nodes whose parentheses meet. -/
theorem parensMeet_cons {n : Node} {ns : List Node}
    (hn : ∀ t, n = leaf t → t.kind ≠ .openParen ∧ t.kind ≠ .closeParen) (h : ParensMeet ns) :
    ParensMeet (n :: ns) := by
  intro before t after hsplit
  rcases List.cons_eq_append_iff.mp hsplit with ⟨rfl, hhead⟩ | ⟨before', rfl, hrest⟩
  · obtain ⟨hleaf, -⟩ := List.cons.inj hhead
    exact ⟨fun ho => absurd ho (hn t hleaf.symm).1, fun hc => absurd hc (hn t hleaf.symm).2⟩
  · obtain ⟨hopen, hclose⟩ := h before' t after hrest
    refine ⟨hopen, fun hc => ?_⟩
    obtain ⟨front, p, rfl, hp⟩ := hclose hc
    exact ⟨n :: front, p, rfl, hp⟩

/-- Two parentheses with nothing between them can stand in front of nodes whose parentheses meet. -/
theorem parensMeet_pair {p q : Token} {ns : List Node} (hp : p.kind = .openParen)
    (hq : q.kind = .closeParen) (h : ParensMeet ns) : ParensMeet (leaf p :: leaf q :: ns) := by
  intro before t after hsplit
  rcases List.cons_eq_append_iff.mp hsplit with ⟨rfl, hhead⟩ | ⟨before', rfl, hrest⟩
  · obtain ⟨hleaf, rfl⟩ := List.cons.inj hhead
    obtain rfl := leaf.inj hleaf
    refine ⟨fun _ => ⟨q, ns, rfl, hq⟩, fun hc => ?_⟩
    rw [hp] at hc
    exact absurd hc (by decide)
  rcases List.cons_eq_append_iff.mp hrest with ⟨rfl, hhead⟩ | ⟨before'', rfl, hrest'⟩
  · obtain ⟨hleaf, rfl⟩ := List.cons.inj hhead
    obtain rfl := leaf.inj hleaf
    refine ⟨fun ho => ?_, fun _ => ⟨[], p, rfl, hp⟩⟩
    rw [hq] at ho
    exact absurd ho (by decide)
  · obtain ⟨hopen, hclose⟩ := h before'' t after hrest'
    refine ⟨hopen, fun hc => ?_⟩
    obtain ⟨front, p', rfl, hp'⟩ := hclose hc
    exact ⟨leaf p :: leaf q :: front, p', rfl, hp'⟩

namespace Reads

variable {ts : List Token} {ns : List Node}

/-- The parentheses that are left in what is read have nothing between them. -/
theorem parensMeet (h : Reads ts ns) : ParensMeet ns := by
  induction h with
  | nil =>
    intro before t after hsplit
    exact absurd hsplit (by simp)
  | token ho hc _ ih =>
    refine parensMeet_cons (fun u hu => ?_) ih
    obtain rfl := leaf.inj hu
    exact ⟨ho, hc⟩
  | empty hp hq _ ih => exact parensMeet_pair hp hq ih
  | block _ _ _ _ _ _ ih => exact parensMeet_cons (fun _ hu => absurd hu (by simp)) ih

/-- A node takes the place from one token to another. -/
theorem exists_ends (h : Reads ts ns) :
    ∀ n ∈ ns, ∃ u ∈ ts, ∃ v ∈ ts, n.span = ⟨u.span.start, v.span.stop⟩ := by
  induction h with
  | nil => simp
  | @token t rest ns _ _ _ ih =>
    refine List.forall_mem_cons.mpr ⟨⟨t, by simp, t, by simp, rfl⟩, fun n hn => ?_⟩
    obtain ⟨u, hu, v, hv, hspan⟩ := ih n hn
    exact ⟨u, by simp [hu], v, by simp [hv], hspan⟩
  | @empty p q rest ns _ _ _ ih =>
    refine List.forall_mem_cons.mpr ⟨⟨p, by simp, p, by simp, rfl⟩, List.forall_mem_cons.mpr
      ⟨⟨q, by simp, q, by simp, rfl⟩, fun n hn => ?_⟩⟩
    obtain ⟨u, hu, v, hv, hspan⟩ := ih n hn
    exact ⟨u, by simp [hu], v, by simp [hv], hspan⟩
  | @block p q inner rest interior ns _ _ _ _ _ _ ih =>
    refine List.forall_mem_cons.mpr ⟨⟨p, by simp, q, by simp, rfl⟩, fun n hn => ?_⟩
    obtain ⟨u, hu, v, hv, hspan⟩ := ih n hn
    exact ⟨u, by simp [hu], v, by simp [hv], hspan⟩

/-- A block at whatever depth is what is read between a pair of parentheses. -/
theorem exists_of_mem_allBlocks (h : Reads ts ns) {interior : List Node} {place : Span}
    (hblock : (interior, place) ∈ allBlocks ns) :
    ∃ before p inner q after, ts = before ++ p :: (inner ++ q :: after) ∧ p.kind = .openParen ∧
      q.kind = .closeParen ∧ interior ≠ [] ∧ Reads inner interior ∧
      place = ⟨p.span.start, q.span.stop⟩ := by
  induction h with
  | nil => exact absurd hblock (by simp [allBlocks])
  | @token t rest ns _ _ _ ih =>
    obtain ⟨before, p, inner, q, after, rfl, hfound⟩ := ih hblock
    exact ⟨t :: before, p, inner, q, after, rfl, hfound⟩
  | @empty p' q' rest ns _ _ _ ih =>
    obtain ⟨before, p, inner, q, after, rfl, hfound⟩ := ih hblock
    exact ⟨p' :: q' :: before, p, inner, q, after, rfl, hfound⟩
  | @block p' q' inner' rest interior' ns hp' hq' hne' hinner' _ ihinner ihrest =>
    rw [allBlocks, blocks, List.cons_append, List.mem_cons, List.mem_append] at hblock
    -- The block is this one, or it is in this one, or behind it.
    rcases hblock with hself | hinside | hbehind
    · obtain ⟨rfl, rfl⟩ := Prod.mk.inj hself
      exact ⟨[], p', inner', q', rest, rfl, hp', hq', hne', hinner', rfl⟩
    · obtain ⟨before, p, inner, q, after, rfl, hfound⟩ := ihinner hinside
      exact ⟨p' :: before, p, inner, q, after ++ q' :: rest, by simp, hfound⟩
    · obtain ⟨before, p, inner, q, after, rfl, hfound⟩ := ihrest hbehind
      exact ⟨p' :: (inner' ++ q' :: before), p, inner, q, after, by simp, hfound⟩

/-- A block stands for a pair of parentheses, when tokens are found one behind the other. -/
theorem isBlockOf (h : Reads ts ns) (hparens : ∀ t ∈ ts, t.IsParenPlaced)
    (hbounds : ∀ t ∈ ts, t.span.start < t.span.stop)
    (hdisjoint : ts.Pairwise fun u v => u.span.stop ≤ v.span.start) :
    ∀ b ∈ allBlocks ns, IsBlockOf ts b.1 b.2 := by
  rintro ⟨interior, place⟩ hblock
  obtain ⟨before, p, inner, q, after, rfl, hp, hq, hne, hinner, rfl⟩ :=
    h.exists_of_mem_allBlocks hblock
  have htokens : allTokens interior = inner :=
    allTokens_ofTokens (fun t ht => hparens t (by simp [ht])) (ofTokens_eq_ok_iff.mpr hinner)
  refine ⟨hne, ⟨before, p, q, after, by rw [htokens], hp, hq, rfl⟩, ?_, hinner.parensMeet⟩
  intro n hn
  obtain ⟨u, hu, v, hv, hspan⟩ := hinner.exists_ends n hn
  -- The interior is behind the opening parenthesis and in front of the closing one.
  have hbehind := (List.pairwise_append.mp hdisjoint).2.1
  obtain ⟨hopening, hrest⟩ := List.pairwise_cons.mp hbehind
  have hstart := hopening u (by simp [hu])
  have hstop := (List.pairwise_append.mp hrest).2.2 v hv q (by simp)
  have hpbounds := hbounds p (by simp)
  have hqbounds := hbounds q (by simp)
  rw [hspan]
  show p.span.start < u.span.start ∧ v.span.stop < q.span.stop
  omega

end Reads

/-! ### Texts -/

/-- The tokens of a text make nodes exactly when their parentheses are balanced. The nodes hold the
    tokens in order, each block stands for a pair of parentheses and what is between them, and what
    parentheses are left at any level are pairs with nothing between them. When there are no nodes,
    the parenthesis is told that has no counterpart. -/
theorem ofTokens_scan (t : Text) :
    ((∃ ns, ofTokens (Token.scan t) = .ok ns) ↔ Token.Balanced (Token.scan t)) ∧
      (∀ ns, ofTokens (Token.scan t) = .ok ns →
        allTokens ns = Token.scan t ∧ ParensMeet ns ∧
          ∀ b ∈ allBlocks ns, IsBlockOf (Token.scan t) b.1 b.2) ∧
      ∀ e, ofTokens (Token.scan t) = .error e → Token.LacksCounterpart (Token.scan t) e := by
  have hparens : ∀ u ∈ Token.scan t, u.IsParenPlaced := fun u hu =>
    Token.isParenPlaced_of_mem_scan hu
  have hcover := Token.cover_scan t
  refine ⟨exists_ofTokens_eq_ok_iff, fun ns hns => ?_, fun e he =>
    lacksCounterpart_of_ofTokens he⟩
  have hread := ofTokens_eq_ok_iff.mp hns
  exact ⟨allTokens_ofTokens hparens hns, hread.parensMeet,
    hread.isBlockOf hparens (fun u hu => (hcover.bounds u hu).2.1) hcover.disjoint⟩

end Node

end SqlScript
