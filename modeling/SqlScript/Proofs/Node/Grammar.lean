import Mathlib.Algebra.Order.Ring.Int
import Mathlib.Tactic.Common
import SqlScript.Proofs.Node.Flatten

namespace SqlScript

/-!
# A grammar of nodes

What nodes are read of tokens is told by a grammar, which knows nothing of the stack of parentheses
that the reader keeps.

* `Token.Balanced` — the sequences of tokens in which every parenthesis has its counterpart;
* `Node.Reads` — the nodes of such a sequence;
* `Node.Reads.addAll` — what the grammar says is read;
* `Nesting.Reads` — how tokens were read so far; `Nesting.Reads.add` says what one more token does,
  and `Nesting.Reads.addAll` what all of them do;
* `Node.ofTokens_eq_ok_iff` — the nodes that are read are those of the grammar.
-/

/-! ### Balanced tokens -/

namespace Token

/-- The sequences of tokens in which every parenthesis has its counterpart. -/
inductive Balanced : List Token → Prop where
  | nil : Balanced []
  | token {t : Token} {rest : List Token} (ho : t.kind ≠ .openParen) (hc : t.kind ≠ .closeParen)
      (hrest : Balanced rest) : Balanced (t :: rest)
  | pair {p q : Token} {inner rest : List Token} (hp : p.kind = .openParen)
      (hq : q.kind = .closeParen) (hinner : Balanced inner) (hrest : Balanced rest) :
      Balanced (p :: (inner ++ q :: rest))

/-- What a token adds to the number of parentheses that are open. -/
def rise (t : Token) : Int :=
  match t.kind with
  | .openParen => 1
  | .closeParen => -1
  | _ => 0

/-- What tokens add to the number of parentheses that are open. -/
def height (ts : List Token) : Int := (ts.map rise).sum

/-- Whether there are never less than no parentheses open, when `depth` are before the tokens. -/
def StaysOpen (depth : Int) : List Token → Prop
  | [] => 0 ≤ depth
  | t :: ts => 0 ≤ depth ∧ StaysOpen (depth + t.rise) ts

/-- An opening parenthesis is a step up. -/
theorem rise_of_open {t : Token} (h : t.kind = .openParen) : t.rise = 1 := by rw [rise, h]

/-- A closing parenthesis is a step down. -/
theorem rise_of_close {t : Token} (h : t.kind = .closeParen) : t.rise = -1 := by rw [rise, h]

/-- Every other token stays at its height. -/
theorem rise_of_ne {t : Token} (ho : t.kind ≠ .openParen) (hc : t.kind ≠ .closeParen) :
    t.rise = 0 := by
  unfold rise
  split
  · exact absurd ‹_› ho
  · exact absurd ‹_› hc
  · rfl

@[simp] theorem height_nil : height [] = 0 := rfl

@[simp] theorem height_cons (t : Token) (ts : List Token) : height (t :: ts) = t.rise + height ts :=
  List.sum_cons

/-- The height of two parts of a sequence is the sum of theirs. -/
@[simp] theorem height_append (ts us : List Token) : height (ts ++ us) = height ts + height us := by
  rw [height, List.map_append, List.sum_append]
  rfl

/-- What never falls below zero does not start there either. -/
theorem StaysOpen.depth_nonneg {depth : Int} {ts : List Token} (h : StaysOpen depth ts) :
    0 ≤ depth := by
  cases ts with
  | nil => exact h
  | cons t ts => exact h.1

/-- A sequence never falls below zero when its first part does not and its second part does not from
    where the first one ends. -/
theorem staysOpen_append {depth : Int} {ts us : List Token} :
    StaysOpen depth (ts ++ us) ↔ StaysOpen depth ts ∧ StaysOpen (depth + height ts) us := by
  induction ts generalizing depth with
  | nil =>
    simp only [List.nil_append, height_nil, Int.add_zero, StaysOpen]
    exact ⟨fun h => ⟨h.depth_nonneg, h⟩, fun h => h.2⟩
  | cons t ts ih =>
    simp only [List.cons_append, StaysOpen, ih, height_cons, Int.add_assoc, and_assoc]

namespace Balanced

variable {ts us : List Token}

/-- As many parentheses are closed as are opened. -/
theorem height_eq_zero (h : Balanced ts) : height ts = 0 := by
  induction h with
  | nil => rfl
  | token ho hc _ ih => rw [height_cons, rise_of_ne ho hc, ih, Int.add_zero]
  | pair hp hq _ _ ihinner ihrest =>
    rw [height_cons, height_append, height_cons, rise_of_open hp, rise_of_close hq, ihinner, ihrest]
    rfl

/-- No more parentheses are closed than were opened before. -/
theorem staysOpen (h : Balanced ts) {depth : Int} (hdepth : 0 ≤ depth) : StaysOpen depth ts := by
  induction h generalizing depth with
  | nil => exact hdepth
  | token ho hc _ ih =>
    refine ⟨hdepth, ih ?_⟩
    rwa [rise_of_ne ho hc, Int.add_zero]
  | pair hp hq hinner _ ihinner ihrest =>
    have hinside : 0 ≤ depth + 1 := by omega
    refine ⟨hdepth, staysOpen_append.mpr ?_⟩
    rw [rise_of_open hp, hinner.height_eq_zero, Int.add_zero]
    refine ⟨ihinner hinside, hinside, ihrest ?_⟩
    rw [rise_of_close hq]
    omega

end Balanced

end Token

/-! ### The nodes of balanced tokens -/

namespace Node

/-- The nodes of a sequence of tokens: a pair of parentheses with something in it makes a block, and
    one with nothing in it stays as it is. -/
inductive Reads : List Token → List Node → Prop where
  | nil : Reads [] []
  | token {t : Token} {rest : List Token} {ns : List Node} (ho : t.kind ≠ .openParen)
      (hc : t.kind ≠ .closeParen) (hrest : Reads rest ns) : Reads (t :: rest) (leaf t :: ns)
  | empty {p q : Token} {rest : List Token} {ns : List Node} (hp : p.kind = .openParen)
      (hq : q.kind = .closeParen) (hrest : Reads rest ns) :
      Reads (p :: q :: rest) (leaf p :: leaf q :: ns)
  | block {p q : Token} {inner rest : List Token} {interior ns : List Node}
      (hp : p.kind = .openParen) (hq : q.kind = .closeParen) (hne : interior ≠ [])
      (hinner : Reads inner interior) (hrest : Reads rest ns) :
      Reads (p :: (inner ++ q :: rest)) (block interior ⟨p.span.start, q.span.stop⟩ :: ns)

namespace Reads

variable {ts us : List Token} {ns ms : List Node}

/-- Two sequences read one after the other are read as the nodes of both. -/
theorem append (h : Reads ts ns) (h' : Reads us ms) : Reads (ts ++ us) (ns ++ ms) := by
  induction h with
  | nil => exact h'
  | token ho hc _ ih => exact .token ho hc ih
  | empty hp hq _ ih => exact .empty hp hq ih
  | block hp hq hne hinner _ _ ih =>
    rw [List.cons_append, List.append_assoc, List.cons_append]
    exact .block hp hq hne hinner ih

/-- Only where there are no tokens there are no nodes. -/
theorem eq_nil (h : Reads ts []) : ts = [] := by
  cases h
  rfl

/-- A pair of parentheses adds what it encloses. -/
theorem enclose {p q : Token} {inner : List Token} {interior : List Node}
    (hp : p.kind = .openParen) (hq : q.kind = .closeParen) (h : Reads inner interior) :
    Reads (p :: (inner ++ [q])) (Nesting.enclose p interior q) := by
  unfold Nesting.enclose
  split
  · rename_i hempty
    rw [List.isEmpty_iff] at hempty
    subst hempty
    rw [h.eq_nil]
    exact .empty hp hq .nil
  · rename_i hne
    exact .block hp hq (by simpa using hne) h .nil

/-- What is read as nodes has its parentheses in balance. -/
theorem balanced (h : Reads ts ns) : Token.Balanced ts := by
  induction h with
  | nil => exact .nil
  | token ho hc _ ih => exact .token ho hc ih
  | empty hp hq _ ih => exact .pair hp hq .nil ih
  | block hp hq _ _ _ ihinner ihrest => exact .pair hp hq ihinner ihrest

end Reads

/-- Balanced tokens have nodes. -/
theorem exists_reads {ts : List Token} (h : Token.Balanced ts) : ∃ ns, Reads ts ns := by
  induction h with
  | nil => exact ⟨[], .nil⟩
  | token ho hc _ ih =>
    obtain ⟨ns, hns⟩ := ih
    exact ⟨_, .token ho hc hns⟩
  | pair hp hq _ _ ihinner ihrest =>
    obtain ⟨interior, hinterior⟩ := ihinner
    obtain ⟨ns, hns⟩ := ihrest
    have hpair := (hinterior.enclose hp hq).append hns
    rw [List.cons_append, List.append_assoc, List.singleton_append] at hpair
    exact ⟨_, hpair⟩

end Node

/-! ### What the grammar says is read -/

namespace Nesting

variable {n : Nesting} {t : Token}

/-- An opening parenthesis is put on the pending ones, and a level starts inside it. -/
theorem add_open (h : t.kind = .openParen) : n.add t = .ok ⟨⟨t, n.level⟩ :: n.pending, []⟩ := by
  rw [add, h]

/-- A closing parenthesis closes the innermost pending one. -/
theorem add_close (h : t.kind = .closeParen) (p : OpenParen) (pending : List OpenParen)
    (level : List Node) :
    add ⟨p :: pending, level⟩ t = .ok ⟨pending, p.before ++ enclose p.opening level t⟩ := by
  rw [add, h]

/-- Every other token is a leaf of the current level. -/
theorem add_other (ho : t.kind ≠ .openParen) (hc : t.kind ≠ .closeParen) :
    n.add t = .ok ⟨n.pending, n.level ++ [.leaf t]⟩ := by
  unfold add
  split
  · exact absurd ‹_› ho
  · exact absurd ‹_› hc
  · rfl

/-- What one token leads to is what the rest goes on from. -/
theorem addAll_cons_of_add {n next : Nesting} {t : Token} (h : n.add t = .ok next)
    (rest : List Token) : n.addAll (t :: rest) = next.addAll rest := by
  rw [addAll, h]

end Nesting

/-- Tokens that the grammar knows add their nodes to the level at which they are read, whatever was
    read before them and whatever comes behind. -/
theorem Node.Reads.addAll {ts : List Token} {ns : List Node} (h : Reads ts ns)
    (pending : List OpenParen) (level : List Node) (rest : List Token) :
    Nesting.addAll ⟨pending, level⟩ (ts ++ rest) = Nesting.addAll ⟨pending, level ++ ns⟩ rest := by
  induction h generalizing pending level rest with
  | nil => rw [List.nil_append, List.append_nil]
  | token ho hc _ ih =>
    rw [List.cons_append, Nesting.addAll_cons_of_add (Nesting.add_other ho hc), ih,
      List.append_assoc, List.singleton_append]
  | empty hp hq _ ih =>
    rw [List.cons_append, List.cons_append, Nesting.addAll_cons_of_add (Nesting.add_open hp),
      Nesting.addAll_cons_of_add (Nesting.add_close hq _ _ _), ih, List.append_assoc]
    rfl
  | @block p q inner rest' interior ns hp hq hne _ _ ihinner ihrest =>
    -- The interior is read at a level of its own, which the closing parenthesis ends.
    have henclose : Nesting.enclose p interior q
        = [.block interior ⟨p.span.start, q.span.stop⟩] := by
      rw [Nesting.enclose, List.isEmpty_eq_false_iff.mpr hne, if_neg (by decide)]
    rw [List.cons_append, List.append_assoc, List.cons_append,
      Nesting.addAll_cons_of_add (Nesting.add_open hp), ihinner, List.nil_append,
      Nesting.addAll_cons_of_add (Nesting.add_close hq _ _ _), henclose, ihrest, List.append_assoc]
    rfl

/-! ### What is read is what the grammar says -/

/-- How tokens were read so far: those behind the innermost parenthesis that is open are balanced,
    and so are those between it and the one around it, and so on. -/
inductive Nesting.Reads : List Token → Nesting → Prop where
  | level {ts : List Token} {ns : List Node} (h : Node.Reads ts ns) : Reads ts ⟨[], ns⟩
  | opened {before inner : List Token} {pending : List OpenParen} {ms ns : List Node} {p : Token}
      (hbefore : Reads before ⟨pending, ms⟩) (hp : p.kind = .openParen)
      (h : Node.Reads inner ns) : Reads (before ++ p :: inner) ⟨⟨p, ms⟩ :: pending, ns⟩

namespace Nesting.Reads

variable {ts us : List Token} {pending : List OpenParen} {level ns : List Node}

/-- Balanced tokens are read at the level where they are found. -/
theorem append (h : Reads ts ⟨pending, level⟩) (h' : Node.Reads us ns) :
    Reads (ts ++ us) ⟨pending, level ++ ns⟩ := by
  cases h with
  | level hlevel => exact .level (hlevel.append h')
  | opened hbefore hp hlevel =>
    rw [List.append_assoc, List.cons_append]
    exact .opened hbefore hp (hlevel.append h')

/-- One more token. -/
theorem add {n next : Nesting} {t : Token} (h : Reads ts n) (hadd : n.add t = .ok next) :
    Reads (ts ++ [t]) next := by
  obtain ⟨pending, level⟩ := n
  by_cases ho : t.kind = .openParen
  · rw [add_open ho] at hadd
    obtain rfl := Except.ok.inj hadd
    exact .opened h ho .nil
  by_cases hc : t.kind = .closeParen
  · cases h with
    | level _ =>
      -- There is nothing to close.
      rw [Nesting.add, hc] at hadd
      exact absurd hadd (by simp)
    | @opened before inner pending ms _ p hbefore hp hlevel =>
      rw [add_close hc] at hadd
      obtain rfl := Except.ok.inj hadd
      rw [List.append_assoc, List.cons_append]
      exact hbefore.append (hlevel.enclose hp hc)
  · rw [add_other ho hc] at hadd
    obtain rfl := Except.ok.inj hadd
    exact h.append (.token ho hc .nil)

/-- When all tokens were read, the grammar knows them, or a parenthesis has no counterpart: a closing
    one behind balanced tokens, or else one behind which the tokens are balanced to the end. -/
theorem addAll {n : Nesting} (h : Reads ts n) (us : List Token) :
    (∃ ns, n.addAll us = .ok ns ∧ Node.Reads (ts ++ us) ns) ∨
      (∃ before q after, ts ++ us = before ++ q :: after ∧ Token.Balanced before ∧
        q.kind = .closeParen ∧ n.addAll us = .error (.unexpectedClose q.span.start)) ∨
      ∃ m before p after, ts ++ us = before ++ p :: after ∧ Reads before m ∧
        p.kind = .openParen ∧ Token.Balanced after ∧
        n.addAll us = .error (.unclosedOpen p.span.start) := by
  induction us generalizing ts n with
  | nil =>
    rw [List.append_nil, Nesting.addAll]
    cases h with
    | level hlevel => exact .inl ⟨_, rfl, hlevel⟩
    | opened hbefore hp hlevel =>
      exact .inr (.inr ⟨_, _, _, _, rfl, hbefore, hp, hlevel.balanced, rfl⟩)
  | cons u us ih =>
    rw [Nesting.addAll]
    cases hadd : n.add u with
    | ok next =>
      have hnext := ih (h.add hadd)
      rwa [List.append_assoc, List.singleton_append] at hnext
    | error e =>
      obtain ⟨pending, level⟩ := n
      -- Only a closing parenthesis is refused, and only where none is open.
      have hc : u.kind = .closeParen := by
        by_contra hc
        by_cases ho : u.kind = .openParen
        · rw [add_open ho] at hadd
          exact absurd hadd (by simp)
        · rw [add_other ho hc] at hadd
          exact absurd hadd (by simp)
      cases h with
      | level hlevel =>
        rw [Nesting.add, hc] at hadd
        obtain rfl := Except.error.inj hadd
        exact .inr (.inl ⟨ts, u, us, rfl, hlevel.balanced, hc, rfl⟩)
      | opened =>
        rw [add_close hc] at hadd
        exact absurd hadd (by simp)

/-- No more parentheses were closed than opened. -/
theorem staysOpen {n : Nesting} (h : Reads ts n) : Token.StaysOpen 0 ts := by
  suffices hboth : Token.StaysOpen 0 ts ∧ 0 ≤ Token.height ts from hboth.1
  induction h with
  | level hlevel =>
    have hbalanced := hlevel.balanced
    exact ⟨hbalanced.staysOpen (Int.le_refl 0), Int.le_of_eq hbalanced.height_eq_zero.symm⟩
  | opened _ hp hlevel ih =>
    have hbalanced := hlevel.balanced
    rw [Token.height_append, Token.height_cons, Token.rise_of_open hp, hbalanced.height_eq_zero]
    refine ⟨Token.staysOpen_append.mpr ⟨ih.1, ?_⟩, by omega⟩
    rw [Token.StaysOpen, Token.rise_of_open hp]
    exact ⟨by omega, hbalanced.staysOpen (by omega)⟩

end Nesting.Reads

namespace Node

/-- The nodes that are read of tokens are those of the grammar. -/
theorem ofTokens_eq_ok_iff {ts : List Token} {ns : List Node} :
    ofTokens ts = .ok ns ↔ Reads ts ns := by
  constructor
  · intro h
    rcases (Nesting.Reads.level .nil).addAll ts with ⟨ms, hread, hgrammar⟩ | hfault | hfault
    · obtain rfl : ms = ns := Except.ok.inj (hread.symm.trans h)
      exact hgrammar
    · obtain ⟨_, q, _, -, -, -, herror⟩ := hfault
      exact absurd (herror.symm.trans h) (by simp)
    · obtain ⟨_, _, p, _, -, -, -, -, herror⟩ := hfault
      exact absurd (herror.symm.trans h) (by simp)
  · intro h
    have hread := h.addAll [] [] []
    rwa [List.append_nil] at hread

/-- Tokens make nodes exactly when they are balanced. -/
theorem exists_ofTokens_eq_ok_iff {ts : List Token} :
    (∃ ns, ofTokens ts = .ok ns) ↔ Token.Balanced ts := by
  simp only [ofTokens_eq_ok_iff]
  exact ⟨fun ⟨_, h⟩ => h.balanced, exists_reads⟩

end Node

end SqlScript
