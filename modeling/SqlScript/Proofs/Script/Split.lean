import Mathlib.Tactic.Common
import SqlScript.Script.Split

namespace SqlScript

/-!
# The tokens of statements

The statements of a sequence of tokens hold these tokens, without the semicolons outside of all
parentheses.

* `unended` — a sequence without these semicolons;
* `unended_append` — two sequences one after the other, without them;
* `Statement.flatMap_tokens_ofTokens` — the tokens of the statements are what is left of them.
-/

/-- The number of parentheses that are open after a token of the kind, when `depth` are before it. A
    parenthesis that closes nothing does not count. -/
def Kind.depthAfter (depth : Nat) : Kind → Nat
  | .openParen => depth + 1
  | .closeParen => depth - 1
  | _ => depth

section

variable {α β : Type} (kind : α → Kind)

/-- The sequence without the semicolons outside of all parentheses, where `depth` parentheses are
    open before it. -/
def unended (depth : Nat) : List α → List α
  | [] => []
  | x :: rest =>
    if kind x = .semicolon ∧ depth = 0 then unended depth rest
    else x :: unended ((kind x).depthAfter depth) rest

/-- The number of parentheses that are open after the sequence. -/
def depthAfterAll (depth : Nat) (xs : List α) : Nat :=
  xs.foldl (fun depth x => (kind x).depthAfter depth) depth

/-- The depth behind two parts is the depth that the second one leads to from behind the first. -/
theorem depthAfterAll_append (depth : Nat) (xs ys : List α) : depthAfterAll kind depth (xs ++ ys)
    = depthAfterAll kind (depthAfterAll kind depth xs) ys :=
  List.foldl_append

/-- What does not end a part is a subsequence. -/
theorem unended_sublist (depth : Nat) (xs : List α) : (unended kind depth xs).Sublist xs := by
  induction xs generalizing depth with
  | nil => exact List.Sublist.slnil
  | cons x rest ih =>
    unfold unended
    split
    · exact (ih depth).cons x
    · exact (ih _).cons_cons x

/-- A semicolon outside of all parentheses does not change the depth, so that what comes behind a
    sequence stands as deep as with all its semicolons. -/
theorem unended_append (depth : Nat) (xs ys : List α) : unended kind depth (xs ++ ys)
    = unended kind depth xs ++ unended kind (depthAfterAll kind depth xs) ys := by
  induction xs generalizing depth with
  | nil => rfl
  | cons x rest ih =>
    rw [List.cons_append, unended, unended, depthAfterAll, List.foldl_cons]
    split
    · rename_i h
      rw [ih, h.1]
      rfl
    · rw [ih, List.cons_append]
      rfl

/-- A part of a sequence that has no such semicolon has none. -/
theorem unended_eq_self_of_append {depth : Nat} {xs ys : List α}
    (h : unended kind depth (xs ++ ys) = xs ++ ys) :
    unended kind depth xs = xs ∧ unended kind (depthAfterAll kind depth xs) ys = ys := by
  rw [unended_append] at h
  have hxs := unended_sublist kind depth xs
  have hys := unended_sublist kind (depthAfterAll kind depth xs) ys
  have hlength := congrArg List.length h
  rw [List.length_append, List.length_append] at hlength
  have h1 := hxs.length_le
  have h2 := hys.length_le
  exact ⟨hxs.eq_of_length (by omega), hys.eq_of_length (by omega)⟩

/-- Without these semicolons, there are none to be left out. -/
theorem unended_unended (depth : Nat) (xs : List α) :
    unended kind depth (unended kind depth xs) = unended kind depth xs := by
  induction xs generalizing depth with
  | nil => rfl
  | cons x rest ih =>
    rw [unended]
    split
    · exact ih depth
    · rename_i h
      rw [unended, if_neg h, ih]

/-- Renaming the elements before or after leaves out the same ones. -/
theorem unended_map (f : β → α) (depth : Nat) (xs : List β) :
    unended kind depth (xs.map f) = (unended (kind ∘ f) depth xs).map f := by
  induction xs generalizing depth with
  | nil => rfl
  | cons x rest ih =>
    rw [List.map_cons, unended, unended]
    simp only [Function.comp_apply]
    split
    · exact ih depth
    · rw [ih, List.map_cons]

/-- Renaming the elements before or after leads to the same depth. -/
theorem depthAfterAll_map (f : β → α) (depth : Nat) (xs : List β) :
    depthAfterAll kind depth (xs.map f) = depthAfterAll (kind ∘ f) depth xs :=
  List.foldl_map

end

namespace Splitter

/-! ### What one token changes -/

/-- Reading a word leaves the count of parentheses. -/
theorem parens_readWord (s : Splitter) (t : Token) (following : List Token) :
    (s.readWord t following).parens = s.parens := by
  unfold readWord
  repeat' split
  all_goals rfl

/-- Reading a word leaves the current statement. -/
theorem current_readWord (s : Splitter) (t : Token) (following : List Token) :
    (s.readWord t following).current = s.current := by
  unfold readWord
  repeat' split
  all_goals rfl

/-- A token changes the count of parentheses by what it is. -/
theorem parens_add (s : Splitter) (t : Token) (following : List Token) :
    (s.add t following).parens = t.kind.depthAfter s.parens := by
  unfold add Kind.depthAfter
  cases t.kind <;> simp only [] <;> first | rfl | (split <;> first | exact parens_readWord .. | rfl)

/-- A token becomes the last one of the current statement. -/
theorem current_add (s : Splitter) (t : Token) (following : List Token) :
    (s.add t following).current = s.current ++ [t] := by
  unfold add
  cases t.kind <;> simp only [] <;> first | rfl | (split <;> first | exact current_readWord .. | rfl)

/-- A statement ends at a semicolon outside parentheses, and nowhere else. -/
theorem endsAt_iff {s : Splitter} {t : Token} :
    s.endsAt t = true ↔ t.kind = .semicolon ∧ s.parens = 0 := by
  simp [endsAt]

/-- The tokens of the statement that was read. -/
theorem flatMap_tokens_finish (s : Splitter) : s.finish.flatMap (·.tokens) = s.current := by
  unfold finish
  split
  · rename_i h
    simp [h]
  · simp

/-- What was read is a statement, when there is any token. -/
theorem finish_of_current {state : Splitter} {s : Statement} (h : state.current = s.tokens) :
    state.finish = [s] := by
  rw [finish, dif_neg (by rw [h]; exact s.nonempty)]
  congr

/-! ### What all tokens make -/

/-- The tokens of the statements that are still to come. -/
theorem flatMap_tokens_split (s : Splitter) (ts : List Token) :
    (s.split ts).flatMap (·.tokens) = s.current ++ unended Token.kind s.parens ts := by
  induction ts generalizing s with
  | nil => simp [split, unended, flatMap_tokens_finish]
  | cons t rest ih =>
    rw [split]
    by_cases hend : s.endsAt t = true
    · have h := endsAt_iff.mp hend
      rw [if_pos hend, List.flatMap_append, flatMap_tokens_finish, ih, unended, if_pos h, h.2]
      rfl
    · have h : ¬(t.kind = .semicolon ∧ s.parens = 0) := fun h => hend (endsAt_iff.mpr h)
      rw [if_neg hend, unended, if_neg h]
      simp only
      -- The statement ends here or goes on, with the same tokens in either case.
      split
      · rw [List.flatMap_append, flatMap_tokens_finish, ih, current_add, parens_add]
        simp [start]
      · rw [ih, current_add, parens_add]
        simp

end Splitter

namespace Statement

/-- The statements hold all tokens but the semicolons that end them, in order. -/
theorem flatMap_tokens_ofTokens (ts : List Token) :
    (ofTokens ts).flatMap (·.tokens) = unended Token.kind 0 ts := by
  rw [ofTokens, Splitter.flatMap_tokens_split]
  rfl

/-- The tokens of the statements are a subsequence of those of the script. -/
theorem flatMap_tokens_sublist (ts : List Token) :
    ((ofTokens ts).flatMap (·.tokens)).Sublist ts := by
  rw [flatMap_tokens_ofTokens]
  exact unended_sublist Token.kind 0 ts

/-- The tokens of a statement are among those that it was made of, in order. -/
theorem tokens_sublist {ts : List Token} {s : Statement} (hs : s ∈ ofTokens ts) :
    s.tokens.Sublist ts :=
  (List.sublist_flatten_of_mem (List.mem_map_of_mem hs)).trans (flatMap_tokens_sublist ts)

/-- A token of a statement is a token of the script. -/
theorem mem_of_mem_tokens {ts : List Token} {s : Statement} {t : Token} (hs : s ∈ ofTokens ts)
    (ht : t ∈ s.tokens) : t ∈ ts :=
  (tokens_sublist hs).subset ht

end Statement

end SqlScript
