import SqlScript.Proofs.Script.Cut
import SqlScript.Node.Nest

namespace SqlScript

/-!
# Parentheses without a counterpart

What is wrong with the parentheses of a sequence of tokens depends on nothing but the parentheses,
so that it can be told of the statements of the sequence one after the other.

* `Token.parenFault?` — the first thing that is wrong with the parentheses of tokens;
* `Node.ofTokens_eq_error_iff` — that is why the tokens make no nodes;
* `Token.parenFault?_append` — what is wrong in a part that closes all its parentheses, or else
  behind it;
* `Statement.Cuts.parenFault?` — what is wrong with a sequence is wrong with the first of its
  statements with which something is.
-/

/-- The parentheses that are open behind a token, the innermost one first, when those of `pending`
    are open before it; or the fault that the token closes none of them. -/
def Token.openParens (pending : List Token) (t : Token) : Except StructureError (List Token) :=
  match t.kind, pending with
  | .openParen, pending => .ok (t :: pending)
  | .closeParen, [] => .error (.unexpectedClose t.span.start)
  | .closeParen, _ :: outer => .ok outer
  | _, pending => .ok pending

/-- What is wrong with the parentheses of tokens, when those of `pending` are open before them: a
    closing one that has none to close, or else the last opening one that is left. -/
def Token.parenFault? (pending : List Token) : List Token → Option StructureError
  | [] => pending.head?.map fun p => .unclosedOpen p.span.start
  | t :: ts =>
    match openParens pending t with
    | .ok next => parenFault? next ts
    | .error e => some e

/-- What is wrong is a parenthesis that has no counterpart. -/
theorem Token.exists_of_parenFault? {pending ts : List Token} {e : StructureError}
    (h : parenFault? pending ts = some e) : ∃ n, e = .unexpectedClose n ∨ e = .unclosedOpen n := by
  induction ts generalizing pending with
  | nil =>
    obtain ⟨p, -, rfl⟩ := Option.map_eq_some_iff.mp h
    exact ⟨_, .inr rfl⟩
  | cons t ts ih =>
    rw [parenFault?] at h
    split at h
    · exact ih h
    · rename_i e' hstep
      obtain rfl := Option.some.inj h
      unfold openParens at hstep
      split at hstep
      · exact absurd hstep (by simp)
      · exact ⟨_, .inl (Except.error.inj hstep).symm⟩
      · exact absurd hstep (by simp)
      · exact absurd hstep (by simp)

/-! ### Nodes -/

/-- A token is read where it can be, and leaves the same parentheses open. -/
theorem Nesting.openParens_pending (n : Nesting) (t : Token) :
    Token.openParens (n.pending.map OpenParen.opening) t
      = (n.add t).map fun next => next.pending.map OpenParen.opening := by
  obtain ⟨pending, level⟩ := n
  unfold add Token.openParens
  cases t.kind <;> cases pending <;> rfl

/-- Tokens make no nodes when something is wrong with their parentheses, and for this reason. -/
theorem Nesting.addAll_eq_error_iff {n : Nesting} {ts : List Token} {e : StructureError} :
    n.addAll ts = .error e
      ↔ Token.parenFault? (n.pending.map OpenParen.opening) ts = some e := by
  induction ts generalizing n with
  | nil =>
    obtain ⟨pending, level⟩ := n
    cases pending <;> simp [addAll, finish, Token.parenFault?]
  | cons t ts ih =>
    rw [addAll, Token.parenFault?, openParens_pending]
    cases n.add t with
    | error e' => simp [Except.map]
    | ok next => exact ih

/-- Nesting fails exactly with the fault that the parentheses have. -/
theorem Node.ofTokens_eq_error_iff {ts : List Token} {e : StructureError} :
    ofTokens ts = .error e ↔ Token.parenFault? [] ts = some e :=
  Nesting.addAll_eq_error_iff

/-! ### Parts of a sequence -/

/-- A token that closes a parenthesis which is open, or none, changes the depth as it should. -/
theorem Token.length_openParens {pending next : List Token} {t : Token}
    (h : openParens pending t = .ok next) : next.length = t.kind.depthAfter pending.length := by
  unfold openParens at h
  cases hk : t.kind <;> cases pending <;> simp only [hk, Except.ok.injEq, reduceCtorEq] at h <;>
    subst h <;> rfl

/-- Parentheses that are open are pending. -/
theorem Nesting.length_pending_of_add {n next : Nesting} {t : Token} (h : n.add t = .ok next) :
    next.pending.length = t.kind.depthAfter n.pending.length := by
  have hopen := n.openParens_pending t
  rw [h] at hopen
  simpa using Token.length_openParens hopen

/-- Tokens that make nodes close what was pending. -/
theorem Nesting.depth_of_addAll {n : Nesting} {ts : List Token} {ns : List Node}
    (h : n.addAll ts = .ok ns) : depthAfterAll Token.kind n.pending.length ts = 0 := by
  induction ts generalizing n with
  | nil =>
    rw [addAll, finish] at h
    split at h
    · rename_i hpending
      simp [depthAfterAll, hpending]
    · exact absurd h (by simp)
  | cons t rest ih =>
    rw [addAll] at h
    split at h
    · rename_i next hadd
      rw [depthAfterAll, List.foldl_cons, ← length_pending_of_add hadd]
      exact ih h
    · exact absurd h (by simp)

/-- Where all parentheses are closed, what comes next is on its own. -/
theorem Token.parenFault?_append {pending xs ys : List Token}
    (h : depthAfterAll Token.kind pending.length xs = 0) :
    parenFault? pending (xs ++ ys) = (parenFault? pending xs).or (parenFault? [] ys) := by
  induction xs generalizing pending with
  | nil =>
    obtain rfl : pending = [] := List.length_eq_zero_iff.mp h
    rfl
  | cons t xs ih =>
    rw [depthAfterAll, List.foldl_cons] at h
    rw [List.cons_append, parenFault?, parenFault?]
    cases hstep : openParens pending t with
    | error e => rfl
    | ok next => exact ih (by rwa [length_openParens hstep])

/-- A semicolon changes nothing. -/
theorem Token.parenFault?_semicolon {t : Token} (hk : t.kind = .semicolon)
    (pending ts : List Token) : parenFault? pending (t :: ts) = parenFault? pending ts := by
  have hstep : openParens pending t = .ok pending := by
    unfold openParens
    rw [hk]
  rw [parenFault?, hstep]

/-- What is wrong with a sequence of tokens is wrong with the first statement with which something
    is. -/
theorem Statement.Cuts.parenFault? {ts : List Token} {ss : List Statement} (h : Cuts ts ss) :
    Token.parenFault? [] ts = ss.findSome? fun s => Token.parenFault? [] s.tokens := by
  induction h with
  | nil => rfl
  | semicolon hk _ ih => rw [Token.parenFault?_semicolon hk, ih]
  | @last s _ =>
    rw [List.findSome?_cons, List.findSome?_nil]
    cases Token.parenFault? [] s.tokens <;> rfl
  | @ended s _ _ _ _ hdepth hk _ ih =>
    have hdepth : depthAfterAll Token.kind ([] : List Token).length s.tokens = 0 := hdepth
    rw [Token.parenFault?_append hdepth, Token.parenFault?_semicolon hk, ih, List.findSome?_cons]
    cases Token.parenFault? [] s.tokens <;> rfl
  | @opening s _ _ _ hdepth _ _ ih =>
    have hdepth : depthAfterAll Token.kind ([] : List Token).length s.tokens = 0 := hdepth
    rw [Token.parenFault?_append hdepth, ih, List.findSome?_cons]
    cases Token.parenFault? [] s.tokens <;> rfl

end SqlScript
