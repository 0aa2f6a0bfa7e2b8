import Mathlib.Tactic.Common
import SqlScript.Node.Nest

namespace SqlScript

/-!
# From nodes to tokens

The nodes of a sequence of tokens hold the tokens that they were made of, in order.

* `Node.allTokens` — the tokens of nodes, with the parentheses of blocks;
* `Token.IsParenPlaced` — what the nodes of a script do not keep of a parenthesis: its text, and
  one end of its place;
* `Node.AllFull` — whether there is no empty block among nodes;
* `Node.allTokens_ofTokens` — the nodes of tokens hold these tokens;
* `Node.allFull_ofTokens` — and no empty block.
-/

/-! ### Tokens of nodes -/

namespace Node

/-- The parenthesis that opens a block. -/
def opening (span : Span) : Token := Token.placed .openParen ['('] span.start

/-- The parenthesis that closes a block. -/
def closing (span : Span) : Token := Token.placed .closeParen [')'] (span.stop - 1)

mutual

/-- The tokens of a node, with the parentheses of blocks. -/
def tokens : Node → List Token
  | leaf t => [t]
  | block interior span => opening span :: (allTokens interior ++ [closing span])

/-- The tokens of a sequence of nodes, with the parentheses of blocks. -/
def allTokens : List Node → List Token
  | [] => []
  | n :: rest => n.tokens ++ allTokens rest

end

/-- The tokens of two sequences of nodes are those of one and then of the other. -/
@[simp] theorem allTokens_append (ns ms : List Node) :
    allTokens (ns ++ ms) = allTokens ns ++ allTokens ms := by
  induction ns with
  | nil => rfl
  | cons n ns ih => simp only [List.cons_append, allTokens, ih, List.append_assoc]

@[simp] theorem allTokens_leaf (t : Token) : allTokens [leaf t] = [t] := rfl

mutual

/-- Whether there is no empty block in a node. -/
def IsFull : Node → Prop
  | leaf _ => True
  | block interior _ => interior ≠ [] ∧ AllFull interior

/-- Whether there is no empty block in a sequence of nodes. -/
def AllFull : List Node → Prop
  | [] => True
  | n :: rest => n.IsFull ∧ AllFull rest

end

/-- Two sequences have no empty block when neither has one. -/
theorem allFull_append {ns ms : List Node} :
    AllFull (ns ++ ms) ↔ AllFull ns ∧ AllFull ms := by
  induction ns with
  | nil => simp [AllFull]
  | cons n ns ih => simp only [List.cons_append, AllFull, ih, and_assoc]

end Node

/-! ### Parentheses -/

/-- Whether the token, when it is a parenthesis, is written as such and takes one character. -/
def Token.IsParenPlaced (t : Token) : Prop :=
  (t.kind = .openParen → t = Token.placed .openParen ['('] t.span.start) ∧
    (t.kind = .closeParen → t = Token.placed .closeParen [')'] (t.span.stop - 1))

/-- Whether the token is a parenthesis that is open. -/
def Token.IsOpening (t : Token) : Prop := t = Token.placed .openParen ['('] t.span.start

namespace Nesting

/-! ### The tokens that were read -/

/-- The tokens up to the innermost parenthesis that is open. -/
def pendingTokens : List OpenParen → List Token
  | [] => []
  | p :: outer => pendingTokens outer ++ Node.allTokens p.before ++ [p.opening]

/-- The tokens that were read so far. -/
def tokens (n : Nesting) : List Token := pendingTokens n.pending ++ Node.allTokens n.level

/-- What was read so far has parentheses as they are written, and no empty block. -/
structure Sound (n : Nesting) : Prop where
  opening : ∀ p ∈ n.pending, p.opening.IsOpening
  before : ∀ p ∈ n.pending, Node.AllFull p.before
  level : Node.AllFull n.level

/-- At the start nothing was read. -/
theorem Sound.start : Nesting.start.Sound :=
  ⟨by simp [Nesting.start], by simp [Nesting.start], trivial⟩

/-- What a pair of parentheses adds are its tokens. -/
theorem allTokens_enclose {opening closing : Token} (ho : opening.IsOpening)
    (hk : closing.kind = .closeParen) (hc : closing.IsParenPlaced) (interior : List Node) :
    Node.allTokens (enclose opening interior closing)
      = opening :: (Node.allTokens interior ++ [closing]) := by
  unfold enclose
  split
  · rename_i h
    rw [List.isEmpty_iff.mp h]
    rfl
  · have hclosing := hc.2 hk
    rw [Token.IsOpening] at ho
    simp only [Node.allTokens, Node.tokens, List.append_nil, Node.opening, Node.closing]
    rw [← ho, ← hclosing]

/-- A pair of parentheses adds no empty block: with nothing between them, they are two tokens. -/
theorem allFull_enclose (opening closing : Token) {interior : List Node}
    (h : Node.AllFull interior) : Node.AllFull (enclose opening interior closing) := by
  unfold enclose
  split
  · simp [Node.AllFull, Node.IsFull]
  · rename_i hne
    exact ⟨⟨by simpa using hne, h⟩, trivial⟩

/-- One more token is read, and nothing else changes. -/
theorem Sound.add {n n' : Nesting} {t : Token} (hn : n.Sound) (ht : t.IsParenPlaced)
    (h : n.add t = .ok n') : n'.Sound ∧ n'.tokens = n.tokens ++ [t] := by
  unfold Nesting.add at h
  split at h
  · rename_i hk
    obtain rfl := Except.ok.inj h
    have hopening : t.IsOpening := ht.1 hk
    refine ⟨⟨?_, ?_, trivial⟩, ?_⟩
    · simpa using ⟨hopening, hn.opening⟩
    · simpa using ⟨hn.level, hn.before⟩
    · simp [tokens, pendingTokens, Node.allTokens]
  · rename_i hk
    split at h
    · exact absurd h (by simp)
    · rename_i p outer hpending
      obtain rfl := Except.ok.inj h
      have hp : p.opening.IsOpening := hn.opening p (by simp [hpending])
      have hbefore : Node.AllFull p.before := hn.before p (by simp [hpending])
      refine ⟨⟨fun q hq => ?_, fun q hq => ?_, ?_⟩, ?_⟩
      · exact hn.opening q (by simp [hpending, show q ∈ outer from hq])
      · exact hn.before q (by simp [hpending, show q ∈ outer from hq])
      · exact Node.allFull_append.mpr ⟨hbefore, allFull_enclose _ _ hn.level⟩
      · simp [tokens, hpending, pendingTokens, allTokens_enclose hp hk ht]
  · obtain rfl := Except.ok.inj h
    refine ⟨⟨hn.opening, hn.before, ?_⟩, ?_⟩
    · exact Node.allFull_append.mpr ⟨hn.level, trivial, trivial⟩
    · simp [tokens]

/-- The nodes that are made of more tokens hold the tokens that were read, and these. -/
theorem Sound.addAll {n : Nesting} {ts : List Token} {ns : List Node} (hn : n.Sound)
    (hts : ∀ t ∈ ts, t.IsParenPlaced) (h : n.addAll ts = .ok ns) :
    Node.allTokens ns = n.tokens ++ ts ∧ Node.AllFull ns := by
  induction ts generalizing n with
  | nil =>
    rw [Nesting.addAll, finish] at h
    split at h
    · rename_i hpending
      obtain rfl := Except.ok.inj h
      exact ⟨by simp [tokens, hpending, pendingTokens], hn.level⟩
    · exact absurd h (by simp)
  | cons t ts ih =>
    rw [Nesting.addAll] at h
    split at h
    · rename_i n' hadd
      obtain ⟨hn', htokens⟩ := hn.add (hts t (by simp)) hadd
      have := ih hn' (fun u hu => hts u (by simp [hu])) h
      rwa [htokens, List.append_assoc, List.singleton_append] at this
    · exact absurd h (by simp)

end Nesting

namespace Node

/-- The nodes of tokens hold these tokens. -/
theorem allTokens_ofTokens {ts : List Token} {ns : List Node}
    (hts : ∀ t ∈ ts, t.IsParenPlaced) (h : ofTokens ts = .ok ns) : allTokens ns = ts := by
  simpa [Nesting.tokens, Nesting.start, Nesting.pendingTokens, allTokens] using
    (Nesting.Sound.start.addAll hts h).1

/-- There is no empty block among the nodes of tokens. -/
theorem allFull_ofTokens {ts : List Token} {ns : List Node}
    (hts : ∀ t ∈ ts, t.IsParenPlaced) (h : ofTokens ts = .ok ns) : AllFull ns :=
  (Nesting.Sound.start.addAll hts h).2

end Node

end SqlScript
