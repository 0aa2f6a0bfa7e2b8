import Mathlib.Data.List.Forall2
import SqlScript.Proofs.Layout.Gather
import SqlScript.Proofs.Node.Balance
import SqlScript.Proofs.Node.Grammar

namespace SqlScript

/-!
# The governing node

A statement is classified twice: the script goes by its tokens, and the layout by its nodes, in which
a pair of parentheses with all that is between them is one node, comments included. Both find the
same, since nothing behind the first parenthesis counts.

* `significantPositions_append` — positions of significant nodes, part by part;
* `Node.governing?` — the node that governs a sequence, told without positions;
* `Node.Leads` — what tokens and the nodes made of them have in common up to a parenthesis;
* `Statement.IsFramedBy` — whether the nodes of a statement are classified as the statement is, and
  `Script.framed_ofText` — those of each statement in a script are.
-/

/-! ### Positions -/

/-- The positions in a part of a sequence are counted from its beginning. -/
theorem significantPositions_append (ks ls : List (Option Kind)) :
    significantPositions (ks ++ ls)
      = significantPositions ks ++ (significantPositions ls).map (ks.length + ·) := by
  unfold significantPositions
  rw [List.zipIdx_append, List.filter_append, List.map_append, Nat.zero_add,
    List.zipIdx_eq_map_add (i := ks.length), List.filter_map, List.map_map, List.map_map]
  rfl

/-- Comments have no position that counts. -/
theorem significantPositions_of_comments {ks : List (Option Kind)}
    (h : ∀ k ∈ ks, k = some .comment) : significantPositions ks = [] := by
  rw [significantPositions, List.map_eq_nil_iff, List.filter_eq_nil_iff]
  intro p hp
  have hk : p.1 = some .comment := h p.1 (List.fst_mem_of_mem_zipIdx hp)
  simp [hk]

/-- A node that is no comment is the first significant one, and the others are one further. -/
theorem significantPositions_cons {k : Option Kind} (hk : k ≠ some .comment)
    (ks : List (Option Kind)) :
    significantPositions (k :: ks) = 0 :: (significantPositions ks).map (1 + ·) := by
  have hone : significantPositions [k] = [0] := by simp [significantPositions, hk]
  rw [← List.singleton_append, significantPositions_append, hone]
  rfl

namespace Node

/-- The nodes that are not comments. -/
def significant (ns : List Node) : List Node := ns.filter fun n => n.kind? != some .comment

/-- The nodes that are not comments are found at the positions that count. -/
theorem forall₂_significantPositions (ns : List Node) :
    List.Forall₂ (fun i n => ns[i]? = some n) (significantPositions (ns.map kind?))
      (significant ns) := by
  let counted := ns.zipIdx.filter fun p => p.1.kind? != some .comment
  have hpositions : significantPositions (ns.map kind?) = counted.map (·.2) := by
    rw [significantPositions, List.zipIdx_map, List.filter_map, List.map_map]
    rfl
  have hnodes : significant ns = counted.map (·.1) := by
    rw [significant]
    conv_lhs => rw [← List.zipIdx_map_fst 0 ns, List.filter_map]
    rfl
  rw [hpositions, hnodes, List.forall₂_map_left_iff, List.forall₂_map_right_iff,
    List.forall₂_same]
  exact fun p hp => List.mem_zipIdx_iff_getElem?.mp (List.mem_filter.mp hp).1

/-! ### The node that governs a sequence -/

/-- The node that governs a sequence: the first one that is not a comment, or the one behind a
    label. -/
def governing? (ns : List Node) : Option Node :=
  match significant ns with
  | [] => none
  | label :: colon :: n :: _ =>
    if label.kind? = some .word ∧ colon.kind? = some .colon then some n else some label
  | n :: _ => some n

/-- The governing node is the one at the position that is found, where there is one. -/
theorem rel_governingPosition? (ns : List Node) :
    Option.Rel (fun i n => ns[i]? = some n) (governingPosition? (ns.map kind?))
      (governing? ns) := by
  have hkind : ∀ {i : Nat} {n : Node}, ns[i]? = some n → (ns.map kind?)[i]? = some n.kind? :=
    fun hn => by rw [List.getElem?_map, hn]; rfl
  have hfound := forall₂_significantPositions ns
  unfold governingPosition? governing?
  generalize significantPositions (ns.map kind?) = ps at hfound ⊢
  generalize significant ns = ms at hfound ⊢
  cases hfound with
  | nil => exact .none
  | cons ha hrest =>
    cases hrest with
    | nil => exact .some ha
    | cons hb hrest =>
      cases hrest with
      | nil => exact .some ha
      | cons hc _ =>
        simp only [hkind ha, hkind hb, Option.some.injEq]
        split
        · exact .some hc
        · exact .some ha

/-- What a frame tells of the node that governs the sequence. -/
theorem governing_frame (ns : List Node) :
    (Frame.ofNodes ns).governing.bind (ns[·]?) = governing? ns ∧
      (Frame.ofNodes ns).governing.isSome = (governing? ns).isSome ∧
      (Frame.ofNodes ns).verb = (governing? ns).bind fun n => Verb.ofKey? n.key := by
  have hbind : (Frame.ofNodes ns).governing.bind (ns[·]?) = governing? ns ∧
      (Frame.ofNodes ns).governing.isSome = (governing? ns).isSome := by
    have hrel := rel_governingPosition? ns
    rw [show (Frame.ofNodes ns).governing = governingPosition? (ns.map kind?) from rfl]
    generalize governingPosition? (ns.map kind?) = position at hrel ⊢
    generalize governing? ns = n at hrel ⊢
    cases hrel with
    | none => exact ⟨rfl, rfl⟩
    | some hn => exact ⟨hn, rfl⟩
  exact ⟨hbind.1, hbind.2, congrArg (Option.bind · _) hbind.1⟩

/-! ### What tokens and their nodes have in common -/

/-- The nodes of significant tokens, up to the first parenthesis: before it the nodes are the tokens,
    and the node there starts with it. -/
inductive Leads : List Token → List Node → Prop where
  | nil : Leads [] []
  | token {t : Token} {ts : List Token} {ns : List Node} (h : Leads ts ns) :
      Leads (t :: ts) (leaf t :: ns)
  | paren {p : Token} {ts : List Token} {n : Node} {ns : List Node} (hp : p.kind = .openParen)
      (hn : n.tokens.head? = some p) : Leads (p :: ts) (n :: ns)

/-- A node that starts with a parenthesis is of no other kind. -/
theorem kind?_ne_of_head? {n : Node} {p : Token} (hp : p.kind = .openParen)
    (hn : n.tokens.head? = some p) {k : Kind} (hk : k ≠ .openParen) : n.kind? ≠ some k := by
  cases n with
  | block interior span => exact fun h => absurd h (by simp [kind?])
  | leaf t =>
    obtain rfl : t = p := by simpa [tokens] using hn
    simp [kind?, hp, hk.symm]

/-- A node is a verb when its first token is one. -/
theorem bind_head?_ofKey? (n : Node) :
    (n.tokens.head?.bind fun t => Verb.ofKey? t.key) = Verb.ofKey? n.key := by
  cases n with
  | leaf t => rfl
  | block interior span =>
    have hkey : (opening span).key = ['('] := by
      show Unicode.upper ['('] = ['(']
      decide +kernel
    have hparen : Verb.ofKey? ['('] = none := by decide
    have hblock : Verb.ofKey? [] = none := by decide
    rw [tokens, List.head?_cons, Option.bind_some, hkey, hparen, key, hblock]

/-- The node that governs starts with the token that does. -/
theorem Leads.head?_governing {ts : List Token} {ns : List Node}
    (h : Leads (Token.significant ts) (significant ns)) :
    ((governing? ns).bind fun n => n.tokens.head?) = SqlScript.governing? ts := by
  unfold governing? SqlScript.governing? governed
  generalize Token.significant ts = us at h ⊢
  generalize significant ns = ms at h ⊢
  cases h with
  | nil => rfl
  | @paren p ts n ns hp hn =>
    -- A parenthesis is no label.
    have hword : ¬p.kind = .word := by simp [hp]
    have hword' := kind?_ne_of_head? hp hn (k := .word) (by decide)
    rcases ts with _ | ⟨_, _ | ⟨_, _⟩⟩ <;> rcases ns with _ | ⟨_, _ | ⟨_, _⟩⟩ <;>
      simp [splitLabel, hword, hword', hn]
  | @token t ts ns h =>
    cases h with
    | nil => rfl
    | @paren p ts n ns hp hn =>
      -- And it is no colon.
      have hcolon : ¬p.kind = .colon := by simp [hp]
      have hcolon' := kind?_ne_of_head? hp hn (k := .colon) (by decide)
      cases ts <;> cases ns <;> simp [splitLabel, hcolon, hcolon', tokens]
    | @token colon ts ns h =>
      by_cases hlabel : t.kind = .word ∧ colon.kind = .colon
      · cases h with
        | nil => rfl
        | paren _ hn => simp [splitLabel, hlabel, kind?, hn]
        | token => simp [splitLabel, hlabel, kind?, tokens]
      · cases h with
        | nil => rfl
        | paren => simp [splitLabel, hlabel, kind?, tokens]
        | token => simp [splitLabel, hlabel, kind?, tokens]

/-- There is a node that governs where there is anything but comments. -/
theorem Leads.isSome_governing {ts : List Token} {ns : List Node}
    (h : Leads (Token.significant ts) (significant ns)) :
    (governing? ns).isSome = true ↔ Token.significant ts ≠ [] := by
  unfold governing?
  generalize Token.significant ts = us at h ⊢
  generalize significant ns = ms at h ⊢
  cases h with
  | nil => simp
  | paren | token =>
    refine iff_of_true ?_ (by simp)
    split
    · contradiction
    · split <;> rfl
    · rfl

namespace Reads

variable {ts : List Token} {ns : List Node}

/-- What is read starts with the tokens as they are, up to the first parenthesis. -/
theorem leads (h : Reads ts ns) (hparens : ∀ t ∈ ts, t.IsParenPlaced) :
    Leads (Token.significant ts) (significant ns) := by
  induction h with
  | nil => exact .nil
  | @token t rest ns ho hc _ ih =>
    have hrest := ih fun u hu => hparens u (by simp [hu])
    by_cases hcomment : t.kind = .comment
    · simpa [Token.significant, significant, Token.isComment, kind?, hcomment] using hrest
    · simpa [Token.significant, significant, Token.isComment, kind?, hcomment] using
        Leads.token hrest
  | @empty p q rest ns hp hq _ _ =>
    have hkept : ¬p.kind = .comment := by simp [hp]
    simpa [Token.significant, significant, Token.isComment, kind?, hkept] using
      Leads.paren (n := leaf p) hp rfl
  | @block p q inner rest interior ns hp hq _ _ _ _ _ =>
    have hkept : ¬p.kind = .comment := by simp [hp]
    have hfirst : opening ⟨p.span.start, q.span.stop⟩ = p := ((hparens p (by simp)).1 hp).symm
    simpa [Token.significant, significant, Token.isComment, kind?, hkept] using
      Leads.paren (n := .block interior ⟨p.span.start, q.span.stop⟩) hp (by simp [tokens, hfirst])

/-- A token that opens no parenthesis is a node as it is. -/
theorem exists_of_cons {t : Token} (h : Reads (t :: ts) ns) (ho : t.kind ≠ .openParen) :
    ∃ ms, ns = .leaf t :: ms ∧ Reads ts ms := by
  cases h with
  | token _ _ hrest => exact ⟨_, rfl, hrest⟩
  | empty hp => exact absurd hp ho
  | block hp => exact absurd hp ho

/-- Tokens in front that are no opening parentheses are read as leaves. -/
theorem exists_of_append {front : List Token} (h : Reads (front ++ ts) ns)
    (hfront : ∀ t ∈ front, t.kind ≠ .openParen) :
    ∃ ms, ns = front.map .leaf ++ ms ∧ Reads ts ms := by
  induction front generalizing ns with
  | nil => exact ⟨ns, rfl, h⟩
  | cons t front ih =>
    obtain ⟨_, rfl, hrest⟩ := h.exists_of_cons (hfront t (by simp))
    obtain ⟨ms, rfl, hms⟩ := ih hrest fun u hu => hfront u (by simp [hu])
    exact ⟨ms, rfl, hms⟩

end Reads

/-- Where the first token is no comment, there is a first node, and it is none either. -/
theorem Reads.exists_kind?_ne {t : Token} {ts : List Token} {ns : List Node}
    (h : Reads (t :: ts) ns) (hcomment : t.kind ≠ .comment) :
    ∃ n ms, ns = n :: ms ∧ n.kind? ≠ some .comment := by
  cases h with
  | token => exact ⟨_, _, rfl, by simpa [kind?] using hcomment⟩
  | empty => exact ⟨_, _, rfl, by simpa [kind?] using hcomment⟩
  | block => exact ⟨_, _, rfl, by simp [kind?]⟩

end Node

/-! ### Labels -/

/-- What stands behind two parts of a sequence and the member between them. -/
theorem getElem?_append_cons_append {α : Type} (xs ys zs : List α) (x y : α) :
    (xs ++ x :: (ys ++ y :: zs))[xs.length + 1 + ys.length]? = some y := by
  have hpart : xs ++ x :: (ys ++ y :: zs) = (xs ++ x :: ys) ++ y :: zs := by simp
  have hlength : xs.length + 1 + ys.length = (xs ++ x :: ys).length := by
    rw [List.length_append, List.length_cons]
    omega
  rw [hpart, hlength, List.getElem?_append_right (Nat.le_refl _), Nat.sub_self]
  rfl

/-- Behind a label, what is not a comment governs. The colon is the one of the label when there is no
    comment behind it. -/
theorem labelColon?_of_label {cs ds : List (Option Kind)} {k : Option Kind}
    (hcs : ∀ k ∈ cs, k = some .comment) (hds : ∀ k ∈ ds, k = some .comment)
    (hk : k ≠ some .comment) (ks : List (Option Kind)) :
    governingPosition? (cs ++ some .word :: (ds ++ some .colon :: k :: ks))
        = some (cs.length + 1 + ds.length + 1) ∧
      labelColon? (cs ++ some .word :: (ds ++ some .colon :: k :: ks))
        = some (cs.length + 1 + ds.length) := by
  have hword : (cs ++ some .word :: (ds ++ some .colon :: k :: ks))[cs.length]?
      = some (some .word) := by
    simp
  have hcolon := getElem?_append_cons_append cs ds (k :: ks) (some .word) (some .colon)
  obtain ⟨ps, hpositions⟩ : ∃ ps,
      significantPositions (cs ++ some .word :: (ds ++ some .colon :: k :: ks))
        = cs.length :: (cs.length + 1 + ds.length) :: (cs.length + 1 + ds.length + 1) :: ps := by
    rw [significantPositions_append, significantPositions_of_comments hcs,
      significantPositions_cons (by decide), significantPositions_append,
      significantPositions_of_comments hds, significantPositions_cons (by decide),
      significantPositions_cons hk]
    simp [Nat.add_assoc, Nat.add_comm 1]
  have hgoverning : governingPosition? (cs ++ some .word :: (ds ++ some .colon :: k :: ks))
      = some (cs.length + 1 + ds.length + 1) := by
    unfold governingPosition?
    rw [hpositions]
    simp only [hword, hcolon, and_self, if_true]
  refine ⟨hgoverning, ?_⟩
  have hbefore : cs.length + ds.length + 1 = cs.length + 1 + ds.length := by omega
  rw [labelColon?, hgoverning, ← hbefore]
  simp only [hbefore, hcolon, if_true]

/-- The colon behind a label stands at the same position among the nodes as among the tokens, and
    so does what is governed right behind it. -/
theorem Frame.labelColon_ofNodes {before between after : List Token} {label colon t : Token}
    {ns : List Node} (h : Node.Reads (before ++ label :: (between ++ colon :: t :: after)) ns)
    (hbefore : ∀ u ∈ before, u.kind = .comment) (hlabel : label.kind = .word)
    (hbetween : ∀ u ∈ between, u.kind = .comment) (hcolon : colon.kind = .colon)
    (ht : t.kind ≠ .comment) :
    let i := before.length + 1 + between.length
    ns[i]? = some (.leaf colon) ∧ (ofNodes ns).governing = some (i + 1) ∧
      (ofNodes ns).labelColon = some i := by
  intro i
  -- No parenthesis is among the tokens up to the colon, so that each of them is a node.
  have hfront : ∀ u ∈ before ++ label :: (between ++ [colon]), u.kind ≠ .openParen := by
    simp only [List.mem_append, List.mem_cons, List.not_mem_nil, or_false]
    rintro u (hu | rfl | hu | rfl)
    · simp [hbefore u hu]
    · simp [hlabel]
    · simp [hbetween u hu]
    · simp [hcolon]
  have hreads : Node.Reads ((before ++ label :: (between ++ [colon])) ++ t :: after) ns := by
    simpa using h
  obtain ⟨ms, rfl, hms⟩ := hreads.exists_of_append hfront
  obtain ⟨n, ms, rfl, hn⟩ := hms.exists_kind?_ne ht
  have hnodes : (before ++ label :: (between ++ [colon])).map Node.leaf ++ n :: ms
      = before.map Node.leaf ++ .leaf label ::
        (between.map Node.leaf ++ .leaf colon :: n :: ms) := by
    simp
  have hkinds : (before.map Node.leaf ++ .leaf label ::
        (between.map Node.leaf ++ .leaf colon :: n :: ms)).map Node.kind?
      = before.map (some ·.kind) ++ some .word ::
        (between.map (some ·.kind) ++ some .colon :: n.kind? :: ms.map Node.kind?) := by
    rw [← hlabel, ← hcolon, List.map_append, List.map_cons, List.map_append, List.map_cons,
      List.map_cons, List.map_map, List.map_map]
    rfl
  have hcomments : ∀ k ∈ before.map (some ·.kind), k = some .comment := by simpa using hbefore
  have hcomments' : ∀ k ∈ between.map (some ·.kind), k = some .comment := by
    simpa using hbetween
  obtain ⟨hgoverning, hlabelColon⟩ :=
    labelColon?_of_label hcomments hcomments' hn (ms.map Node.kind?)
  rw [← hkinds, List.length_map, List.length_map] at hgoverning hlabelColon
  rw [hnodes]
  refine ⟨?_, hgoverning, hlabelColon⟩
  simpa using getElem?_append_cons_append (before.map Node.leaf) (between.map Node.leaf)
    (n :: ms) (.leaf label) (.leaf colon)

/-! ### Statements -/

/-- Whether the nodes of a statement are classified as the statement is. -/
structure Statement.IsFramedBy (s : Statement) (ns : List Node) : Prop where
  verb : (Frame.ofNodes ns).verb = s.verb?
  /-- Something governs the nodes unless the statement has comments only. -/
  isSome : (Frame.ofNodes ns).governing.isSome = true ↔ s.significant ≠ []
  /-- The node that governs starts with the token that does. -/
  starts : (((Frame.ofNodes ns).governing.bind (ns[·]?)).bind fun n => n.tokens.head?)
    = governing? s.tokens
  /-- The colon of a label is found where it is, with what is governed right behind it. -/
  labelColon : ∀ before label between colon t after,
    s.tokens = before ++ label :: (between ++ colon :: t :: after) →
    (∀ u ∈ before, u.kind = .comment) → label.kind = .word →
    (∀ u ∈ between, u.kind = .comment) → colon.kind = .colon → t.kind ≠ .comment →
    let i := before.length + 1 + between.length
    ns[i]? = some (.leaf colon) ∧ (Frame.ofNodes ns).governing = some (i + 1) ∧
      (Frame.ofNodes ns).labelColon = some i

/-- The nodes that the tokens of a statement make are classified as the statement is. -/
theorem Statement.isFramedBy_of_reads {s : Statement} {ns : List Node}
    (h : Node.Reads s.tokens ns) (hparens : ∀ t ∈ s.tokens, t.IsParenPlaced) :
    s.IsFramedBy ns := by
  obtain ⟨hbind, hsome, hverb⟩ := Node.governing_frame ns
  have hleads := h.leads hparens
  have hstarts : ((Node.governing? ns).bind fun n => n.tokens.head?) = governing? s.tokens :=
    hleads.head?_governing
  refine ⟨?_, ?_, ?_, ?_⟩
  · rw [hverb, verb?, governingVerb?, ← hstarts, Option.bind_assoc]
    exact congrArg _ (funext fun n => n.bind_head?_ofKey?.symm)
  · rw [hsome]
    exact hleads.isSome_governing
  · rw [hbind]
    exact hstarts
  · intro before label between colon t after htokens hbefore hlabel hbetween hcolon ht
    exact Frame.labelColon_ofNodes (htokens ▸ h) hbefore hlabel hbetween hcolon ht

/-! ### Scripts -/

namespace Script

/-- Where the parentheses of a text are balanced, those of each statement are. -/
theorem exists_nodes {t : Text} (h : Token.Balanced (Token.scan t)) {s : Statement}
    (hs : s ∈ (ofText t).statements) : ∃ ns, Node.ofTokens s.tokens = .ok ns := by
  obtain ⟨all, hall⟩ := Node.exists_ofTokens_eq_ok_iff.mpr h
  have hcuts : Statement.Cuts (Token.scan t) (ofText t).statements :=
    Statement.cuts_ofTokens fun u hu => Token.isRead_of_mem_scan hu
  have hfault : Token.parenFault? [] s.tokens = none := by
    have hnone : Token.parenFault? [] (Token.scan t) = none := by
      rw [Option.eq_none_iff_forall_ne_some]
      intro e he
      rw [← Node.ofTokens_eq_error_iff, hall] at he
      exact absurd he (by simp)
    rw [hcuts.parenFault?, List.findSome?_eq_none_iff] at hnone
    exact hnone s hs
  cases hns : Node.ofTokens s.tokens with
  | ok ns => exact ⟨ns, rfl⟩
  | error e =>
    rw [Node.ofTokens_eq_error_iff, hfault] at hns
    exact absurd hns (by simp)

/-- Where the parentheses of a text are balanced, each of its statements has nodes. And the nodes of a
    statement, whatever the others look like, are classified as the statement is: by the same verb, by
    what the same token starts, and with the colon of the same label. -/
theorem framed_ofText (t : Text) :
    (Token.Balanced (Token.scan t) →
      ∀ s ∈ (ofText t).statements, ∃ ns, Node.ofTokens s.tokens = .ok ns) ∧
    ∀ s ∈ (ofText t).statements, ∀ ns, Node.ofTokens s.tokens = .ok ns → s.IsFramedBy ns := by
  refine ⟨fun h s hs => exists_nodes h hs, fun s hs ns hns => ?_⟩
  refine Statement.isFramedBy_of_reads (Node.ofTokens_eq_ok_iff.mp hns) fun u hu => ?_
  exact Token.isParenPlaced_of_mem_scan (Statement.mem_of_mem_tokens hs hu)

/-- A body with a label, in which a call has blocks as its argument. -/
theorem framed_ofText_body :
    let t := "l: BEGIN f((a), /**/ ()); END l".toList
    Token.Balanced (Token.scan t) ∧ (ofText t).statements.length = 3 ∧
      ∀ s ∈ (ofText t).statements, ∃ ns, Node.ofTokens s.tokens = .ok ns ∧ s.IsFramedBy ns := by
  intro t
  have hnodes : (Node.ofTokens (Token.scan t)).toOption.isSome = true := by decide +kernel
  have hbalanced : Token.Balanced (Token.scan t) := by
    rw [← Node.exists_ofTokens_eq_ok_iff]
    cases hns : Node.ofTokens (Token.scan t) with
    | ok ns => exact ⟨ns, rfl⟩
    | error e => simp [hns, Except.toOption] at hnodes
  obtain ⟨hexists, hframed⟩ := framed_ofText t
  refine ⟨hbalanced, by decide +kernel, fun s hs => ?_⟩
  obtain ⟨ns, hns⟩ := hexists hbalanced s hs
  exact ⟨ns, hns, hframed s hs ns hns⟩

end Script

end SqlScript
