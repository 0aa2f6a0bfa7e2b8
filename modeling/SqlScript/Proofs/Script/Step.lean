import SqlScript.Proofs.Script.Split

namespace SqlScript

/-!
# Reading in steps

The splitter reads one token after the other. The statements of a script are those that end in its
first tokens, and those that are found from there on.

* `Terminator` — what ends a statement;
* `Splitter.step` and `Splitter.run` — what one token ends, and what a sequence of tokens ends;
* `Splitter.split_append` — the statements of a script from those that end in its first tokens.
-/

/-- What ends a statement. -/
inductive Terminator where
  /-- A semicolon outside of all parentheses, which does not belong to the statement. -/
  | semicolon
  /-- The word that opens a body, which is the last one of the statement. -/
  | opening
  /-- The end of the script. -/
  | scriptEnd
deriving DecidableEq

namespace Splitter

/-- One more token, with the tokens that follow it: the statement that it ends, if any, and what was
    read so far of the next one. -/
def step (s : Splitter) (t : Token) (following : List Token) :
    List (Statement × Terminator) × Splitter :=
  if s.endsAt t then (s.finish.map fun q => (q, .semicolon), start)
  else
    let next := s.add t following
    if next.awaited = some 0 then
      (next.finish.map fun q => (q, .opening), { start with parens := next.parens })
    else ([], next)

/-- The statements that end in a sequence of tokens, which other tokens follow, and what was read so
    far of the next one. -/
def run (following : List Token) (s : Splitter) :
    List Token → List (Statement × Terminator) × Splitter
  | [] => ([], s)
  | t :: ts =>
    ((s.step t (ts ++ following)).1 ++ (run following (s.step t (ts ++ following)).2 ts).1,
      (run following (s.step t (ts ++ following)).2 ts).2)

/-- The statements that are still to come, after one more token. -/
theorem split_cons (s : Splitter) (t : Token) (rest : List Token) :
    s.split (t :: rest) = (s.step t rest).1.map Prod.fst ++ (s.step t rest).2.split rest := by
  have hfst : ∀ (ss : List Statement) (e : Terminator),
      (ss.map fun q => (q, e)).map Prod.fst = ss := fun ss e => by
    rw [List.map_map]
    exact List.map_id ss
  rw [split, step]
  by_cases hend : s.endsAt t = true
  · rw [if_pos hend, if_pos hend, hfst]
  · rw [if_neg hend, if_neg hend]
    simp only
    split
    · rw [hfst]
    · rfl

/-- The statements of a script are those that end in its first tokens, and those that come after. -/
theorem split_append (s : Splitter) (ts following : List Token) : s.split (ts ++ following)
    = (run following s ts).1.map Prod.fst ++ (run following s ts).2.split following := by
  induction ts generalizing s with
  | nil => rfl
  | cons t ts ih => rw [List.cons_append, split_cons, ih, run, List.map_append, List.append_assoc]

/-- Two sequences of tokens are read one after the other. -/
theorem run_append (s : Splitter) (ts us following : List Token) : run following s (ts ++ us)
    = ((run (us ++ following) s ts).1 ++ (run following (run (us ++ following) s ts).2 us).1,
      (run following (run (us ++ following) s ts).2 us).2) := by
  induction ts generalizing s with
  | nil => rfl
  | cons t ts ih =>
    rw [List.cons_append, run, run, ih, List.append_assoc, List.append_assoc]

/-! ### Parentheses -/

/-- A token changes the count of parentheses by what it is, whether it ends a statement or not. -/
theorem parens_step (s : Splitter) (t : Token) (following : List Token) :
    (s.step t following).2.parens = t.kind.depthAfter s.parens := by
  unfold step
  by_cases hend : s.endsAt t = true
  · obtain ⟨hk, hparens⟩ := endsAt_iff.mp hend
    rw [if_pos hend, hk, hparens]
    rfl
  · rw [if_neg hend]
    simp only
    split
    · exact parens_add s t following
    · exact parens_add s t following

/-- Parentheses are counted across statements. -/
theorem parens_run (following : List Token) (s : Splitter) (ts : List Token) :
    (run following s ts).2.parens = depthAfterAll Token.kind s.parens ts := by
  induction ts generalizing s with
  | nil => rfl
  | cons t ts ih =>
    rw [run, ih, parens_step]
    rfl

/-- What ends in a sequence of tokens, and what was read behind it, hold these tokens. -/
theorem flatMap_tokens_run (following : List Token) (s : Splitter) (ts : List Token) :
    (run following s ts).1.flatMap (fun p => p.1.tokens) ++ (run following s ts).2.current
      = s.current ++ unended Token.kind s.parens ts := by
  have htokens := flatMap_tokens_split s (ts ++ following)
  rw [split_append, List.flatMap_append, List.flatMap_map, flatMap_tokens_split, parens_run,
    unended_append, ← List.append_assoc, ← List.append_assoc] at htokens
  exact List.append_cancel_right htokens

end Splitter

end SqlScript
