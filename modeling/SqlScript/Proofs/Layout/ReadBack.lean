import Mathlib.Data.List.Chain
import SqlScript.Proofs.Layout.Written
import SqlScript.Proofs.Script.Opening

namespace SqlScript

/-!
# Which statements are read back

Statements are written one after the other, each with a semicolon behind it unless it opens a body or
consists of comments. They are read as the same statements when each of them ends where it did
before, which is told by the statement and the one behind it.

* `Statement.StaysApart` — whether a statement that is written in front of another one ends there;
* `Statement.areReadBack_cons_of_ended` and `Statement.areReadBack_cons_of_opening` — the first one
  of some statements is read back when it does;
* `Statement.Reads.areReadBack_iff` and `Script.areReadBack_iff` — statements are read back exactly
  when each of them stays apart from the next one and no parenthesis is open at their end;
* `Script.areReadBack_of_forall` — a condition on each statement of a script, comments in it or not.
-/

namespace Statement

open Splitter

/-- Whether a statement ends where it did when it is written in front of another one. -/
structure StaysApart (s q : Statement) : Prop where
  /-- A statement of comments is written without a semicolon, and would go on. -/
  significant : s.significant ≠ []
  /-- So would one that a semicolon ended behind a word that opens a body, in a `CASE` expression. -/
  cases : s.opener?.isSome = true → s.openCases = 0
  /-- The first words of the next statement do not belong to a `BEGIN`. -/
  atomic : s.endsWithBegin = true → atomicLength q.tokens = 0

/-! ### Written statements -/

variable {s q : Statement} {ss : List Statement}

/-- A statement without others is read back, unless the semicolon behind it would be between
    parentheses. -/
theorem areReadBack_singleton {state : Splitter} (hrun : run [] .start s.tokens = ([], state))
    (hcurrent : state.current = s.tokens) :
    AreReadBack [s] ↔ (s.isTerminated = true → s.openParens = 0) := by
  have hparens : state.parens = s.openParens := by
    have hdepth := parens_run [] .start s.tokens
    rwa [hrun] at hdepth
  rw [AreReadBack, List.flatMap_singleton]
  by_cases hterminated : s.isTerminated = true
  · rw [written_of_isTerminated hterminated]
    constructor
    · intro hback _
      -- Between parentheses, the semicolon would be part of the statement.
      have htokens := flatMap_tokens_ofTokens (s.tokens ++ [.placed .semicolon [';'] 0])
      rw [hback, unended_append, unended_of_run hrun hcurrent, List.flatMap_singleton] at htokens
      by_contra hopen
      rw [unended, if_neg fun h => hopen h.2] at htokens
      simp at htokens
    · intro hclosed
      exact ofTokens_append_semicolon hrun hcurrent (hparens.trans (hclosed hterminated)) rfl
        isRead_semicolon []
  · rw [written_of_not_isTerminated ((Bool.not_eq_true _).mp hterminated)]
    exact iff_of_true (ofTokens_of_run hrun hcurrent) fun h => absurd h hterminated

/-- What is written of some statements starts with the tokens of the first one. -/
theorem exists_written_cons (q : Statement) (ss : List Statement) :
    ∃ us, (q :: ss).flatMap written = q.tokens ++ us :=
  ⟨_, by rw [List.flatMap_cons, written, List.append_assoc]⟩

/-- A statement that stays apart from the next one gets a semicolon, if it opens no body while it is
    read. -/
theorem StaysApart.isTerminated (h : s.StaysApart q) {state : Splitter}
    (hrun : run [] .start s.tokens = ([], state)) (hcurrent : state.current = s.tokens)
    (hparens : state.parens = 0) (hread : ∀ t ∈ s.tokens, t.IsRead) : s.isTerminated = true := by
  refine isTerminated_iff.mpr ⟨h.significant, ?_⟩
  by_contra hopener
  have hcases := h.cases (Option.isSome_iff_ne_none.mpr hopener)
  exact hopener (opener?_eq_none_of_run hrun hcurrent hread hparens hcases)

/-- Without a semicolon, such a statement goes on with the next one. -/
theorem not_areReadBack_cons {state : Splitter} (hrun : run [] .start s.tokens = ([], state))
    (hcurrent : state.current = s.tokens) (hterminated : s.isTerminated = false)
    (hread : ∀ p ∈ s :: q :: ss, ∀ t ∈ p.tokens, t.IsRead) (hq : Token.Unended q.tokens) :
    ¬AreReadBack (s :: q :: ss) := by
  intro hback
  have hnext : ∀ t ∈ (q :: ss).flatMap written, t.IsRead :=
    isRead_written fun p hp => hread p (List.mem_cons_of_mem _ hp)
  rw [AreReadBack, List.flatMap_cons, written_of_not_isTerminated hterminated] at hback
  have hreads := reads_ofTokens (List.forall_mem_append.mpr ⟨hread s (by simp), hnext⟩)
  rw [hback] at hreads
  rcases hreads.of_append (unended_of_run hrun hcurrent) with ⟨-, hhead⟩ | hopens
  · -- The next statement would start with a semicolon.
    obtain ⟨us, hus⟩ := exists_written_cons q ss
    obtain ⟨t, more, htokens⟩ := List.exists_cons_of_ne_nil q.nonempty
    rw [hus, htokens] at hhead
    exact absurd (hhead t rfl) (htokens ▸ hq).head
  · have halone := run_of_opening [] hopens (hread s (by simp))
    rw [hrun] at halone
    exact absurd (congrArg Prod.fst halone) (by simp)

/-- A statement that opens no body while it is read is read back in front of others when it stays
    apart from the next one. -/
theorem areReadBack_cons_of_ended {state : Splitter}
    (hrun : run [] .start s.tokens = ([], state)) (hcurrent : state.current = s.tokens)
    (hparens : state.parens = 0) (hread : ∀ p ∈ s :: q :: ss, ∀ t ∈ p.tokens, t.IsRead)
    (hq : Token.Unended q.tokens) :
    AreReadBack (s :: q :: ss) ↔ s.StaysApart q ∧ AreReadBack (q :: ss) := by
  cases hterminated : s.isTerminated with
  | true =>
    obtain ⟨hsignificant, hopener⟩ := isTerminated_iff.mp hterminated
    have happart : s.StaysApart q :=
      ⟨hsignificant, fun h => absurd h (by simp [hopener]), fun h => by
        rw [opener?_of_endsWithBegin h] at hopener
        exact absurd hopener (by simp)⟩
    rw [AreReadBack, AreReadBack, List.flatMap_cons, written_of_isTerminated hterminated,
      List.append_assoc, List.singleton_append,
      ofTokens_append_semicolon hrun hcurrent hparens rfl isRead_semicolon]
    simp [happart]
  | false =>
    refine iff_of_false (not_areReadBack_cons hrun hcurrent hterminated hread hq) fun h => ?_
    rw [h.1.isTerminated hrun hcurrent hparens (hread s (by simp))] at hterminated
    exact absurd hterminated (by decide)

/-- The look-ahead in what is written of some statements goes no further than the first one. -/
theorem AreReadBack.atomicLength_written (h : AreReadBack (q :: ss))
    (hread : ∀ t ∈ (q :: ss).flatMap written, t.IsRead) (hq : Token.Unended q.tokens) :
    atomicLength ((q :: ss).flatMap written) = atomicLength q.tokens := by
  have hreads := reads_ofTokens hread
  rw [show ofTokens _ = _ from h] at hreads
  obtain ⟨us, hus⟩ := exists_written_cons q ss
  rw [hus] at hreads hread ⊢
  exact hreads.atomicLength_eq hq hread

/-- A statement that opens a body ends with its last word again, unless that is a `BEGIN` to which an
    `ATOMIC` of the next one would belong. -/
theorem areReadBack_cons_of_opening {rest : List Token}
    (hrun : run rest .start s.tokens = ([(s, .opening)], .start))
    (hread : ∀ p ∈ s :: q :: ss, ∀ t ∈ p.tokens, t.IsRead) (hq : Token.Unended q.tokens) :
    AreReadBack (s :: q :: ss) ↔ s.StaysApart q ∧ AreReadBack (q :: ss) := by
  have hs : ∀ t ∈ s.tokens, t.IsRead := hread s (by simp)
  have hnext : ∀ t ∈ (q :: ss).flatMap written, t.IsRead :=
    isRead_written fun p hp => hread p (List.mem_cons_of_mem _ hp)
  have hfirst := run_opening_iff ((q :: ss).flatMap written) hrun hs
  obtain ⟨hsignificant, hcases⟩ := closed_of_run_opening hrun hs
  rw [AreReadBack, List.flatMap_cons,
    written_of_isSome_opener? (isSome_opener?_of_run_opening hrun hs)]
  constructor
  · intro hback
    have hreads := reads_ofTokens (List.forall_mem_append.mpr ⟨hs, hnext⟩)
    rw [hback] at hreads
    have hopens := (hreads.of_append (unended_of_run_opening hrun)).resolve_left fun h => by
      obtain ⟨⟨state, hstate⟩, -⟩ := h
      rw [run_of_opening [] hrun hs] at hstate
      exact absurd (congrArg Prod.fst hstate) (by simp)
    rw [ofTokens_append, hopens] at hback
    have htail : AreReadBack (q :: ss) := (List.cons.inj hback).2
    have hatomic (hends : s.endsWithBegin = true) : atomicLength q.tokens = 0 :=
      htail.atomicLength_written hnext hq ▸ hfirst.mp hopens hends
    exact ⟨⟨hsignificant, fun _ => hcases, hatomic⟩, htail⟩
  · rintro ⟨happart, hback⟩
    have hopens := hfirst.mpr fun hends =>
      (hback.atomicLength_written hnext hq).trans (happart.atomic hends)
    rw [ofTokens_append, hopens]
    exact congrArg (s :: ·) hback

/-! ### Sequences -/

/-- Statements that were read are read back exactly when each of them stays apart from the next one,
    and the last one is not followed by a semicolon between parentheses. -/
theorem Reads.areReadBack_iff {ts : List Token} (h : Reads ts ss)
    (hread : ∀ p ∈ ss, ∀ t ∈ p.tokens, t.IsRead) :
    AreReadBack ss ↔ ss.IsChain StaysApart ∧
      ∀ p ∈ ss.getLast?, p.isTerminated = true → p.openParens = 0 := by
  induction h with
  | nil => exact iff_of_true rfl ⟨.nil, by simp⟩
  | semicolon _ _ ih => exact ih hread
  | last hrun hcurrent => simp [areReadBack_singleton hrun hcurrent]
  | @ended s state t ts ss hrun hcurrent hparens hk hrest ih =>
    cases ss with
    | nil => simp [areReadBack_singleton hrun hcurrent]
    | cons q ss =>
      rw [areReadBack_cons_of_ended hrun hcurrent hparens hread (hrest.unended q (by simp)),
        ih fun p hp => hread p (List.mem_cons_of_mem _ hp), List.isChain_cons_cons,
        List.getLast?_cons_cons, and_assoc]
  | @opening s ts ss hrun hrest ih =>
    have hs : ∀ t ∈ s.tokens, t.IsRead := hread s (by simp)
    cases ss with
    | nil =>
      have hopener := isSome_opener?_of_run_opening hrun hs
      have halone : AreReadBack [s] := by
        rw [AreReadBack, List.flatMap_singleton, written_of_isSome_opener? hopener]
        exact ofTokens_of_run_opening hrun hs
      refine iff_of_true halone ⟨.singleton s, fun p hp hterminated => ?_⟩
      obtain rfl : s = p := by simpa using hp
      rw [(isTerminated_iff.mp hterminated).2] at hopener
      exact absurd hopener (by decide)
    | cons q ss =>
      rw [areReadBack_cons_of_opening hrun hread (hrest.unended q (by simp)),
        ih fun p hp => hread p (List.mem_cons_of_mem _ hp), List.isChain_cons_cons,
        List.getLast?_cons_cons, and_assoc]

end Statement

namespace Script

/-- The statements of a script are read back exactly when none of them but the last one consists of
    comments, or ends behind a word that opens a body in a `CASE` expression, or ends with a `BEGIN` in
    front of an `ATOMIC`, and when no parenthesis is open at the end of the last one, if it gets a
    semicolon. -/
theorem areReadBack_iff (t : Text) : Statement.AreReadBack (ofText t).statements ↔
    (ofText t).statements.IsChain Statement.StaysApart ∧
      ∀ s ∈ (ofText t).statements.getLast?, s.isTerminated = true → s.openParens = 0 := by
  have hread : ∀ u ∈ Token.scan t, u.IsRead := fun u hu => Token.isRead_of_mem_scan hu
  refine (Statement.reads_ofTokens hread).areReadBack_iff fun s hs u hu => ?_
  exact hread u (Statement.mem_of_mem_tokens hs hu)

/-- The statements of a script are read back when all parentheses and `CASE` expressions in it are
    closed, no other statement than the last one consists of comments, and none starts with `ATOMIC`
    or `NOT ATOMIC`. -/
theorem areReadBack_of_forall {t : Text}
    (hclosed : ∀ s ∈ (ofText t).statements, s.openParens = 0 ∧ s.openCases = 0)
    (hcomments : ∀ s ∈ (ofText t).statements.dropLast, s.significant ≠ [])
    (hatomic : ∀ s ∈ (ofText t).statements, atomicLength s.tokens = 0) :
    Statement.AreReadBack (ofText t).statements := by
  refine (areReadBack_iff t).mpr
    ⟨List.isChain_iff_forall_rel_of_append_cons_cons.mpr fun s q before after hsplit => ?_,
      fun s hs _ => (hclosed s (List.mem_of_getLast? hs)).1⟩
  have hs : s ∈ (ofText t).statements.dropLast := by
    rw [hsplit, List.dropLast_append_cons]
    simp
  have hq : q ∈ (ofText t).statements := by simp [hsplit]
  exact ⟨hcomments s hs, fun _ => (hclosed s ((List.dropLast_sublist _).subset hs)).2,
    fun _ => hatomic q hq⟩

/-- A statement of comments runs into the next one. -/
example : ¬Statement.AreReadBack (ofText "/*a*/; select 1".toList).statements := by
  decide +kernel

end Script

end SqlScript
