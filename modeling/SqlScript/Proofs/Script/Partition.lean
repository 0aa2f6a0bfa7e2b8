import SqlScript.Proofs.Script.Cut
import SqlScript.Script.Basic

namespace SqlScript

/-!
# The parts of a script

The statements of a script and its groups hold every token once, in order, but for the semicolons
that end statements.

* `Statement.Cuts.exists_between` — what is between two statements that follow each other;
* `Script.parts_ofText` — the parts of a script: nothing is lost or told twice, no statement is
  empty, and where no semicolon is between two statements, the first one opens a body.
-/

/-- Two statements that follow each other have semicolons between them, all of them outside of
    parentheses, or the first one opens a body. -/
theorem Statement.Cuts.exists_between {ts : List Token} {ss before after : List Statement}
    {first second : Statement} (h : Cuts ts ss) (hss : ss = before ++ first :: second :: after) :
    ∃ front gap back, ts = front ++ first.tokens ++ gap ++ second.tokens ++ back ∧
      unended Token.kind 0 front = before.flatMap (·.tokens) ∧
      depthAfterAll Token.kind 0 (front ++ first.tokens) = 0 ∧
      (∀ u ∈ gap, u.kind = .semicolon) ∧
      unended Token.kind 0 back = after.flatMap (·.tokens) ∧
      (gap = [] → first.opener?.isSome = true) := by
  -- The pair is cut right here when no statements are before it, or else further on.
  induction h generalizing before with
  | nil => exact absurd hss (by simp)
  | @semicolon t ts ss hk _ ih =>
    obtain ⟨front, gap, back, rfl, hfront, hdepth, hrest⟩ := ih hss
    refine ⟨t :: front, gap, back, rfl, ?_, ?_, hrest⟩
    · rw [unended, if_pos ⟨hk, rfl⟩, hfront]
    · rw [List.cons_append, depthAfterAll, List.foldl_cons, hk]
      exact hdepth
  | last =>
    cases before with
    | nil => exact absurd hss (by simp)
    | cons => exact absurd hss (by simp)
  | @ended s t ts ss hwhole hdepth hk hcuts ih =>
    cases before with
    | nil =>
      obtain ⟨rfl, rfl⟩ := List.cons.inj hss
      obtain ⟨gap, back, rfl, hgap, hback⟩ := hcuts.exists_head
      exact ⟨[], t :: gap, back, by simp, rfl, hdepth, List.forall_mem_cons.mpr ⟨hk, hgap⟩, hback,
        by simp⟩
    | cons s' before =>
      obtain ⟨rfl, rfl⟩ := List.cons.inj hss
      obtain ⟨front, gap, back, rfl, hfront, hdepth', hrest⟩ := ih rfl
      refine ⟨s.tokens ++ t :: front, gap, back, by simp, ?_, ?_, hrest⟩
      · rw [unended_append, hwhole, hdepth, unended, if_pos ⟨hk, rfl⟩, hfront, List.flatMap_cons]
      · rw [List.append_assoc, depthAfterAll_append, hdepth, List.cons_append, depthAfterAll,
          List.foldl_cons, hk]
        exact hdepth'
  | @opening s ts ss hwhole hdepth hopener hcuts ih =>
    cases before with
    | nil =>
      obtain ⟨rfl, rfl⟩ := List.cons.inj hss
      obtain ⟨gap, back, rfl, hgap, hback⟩ := hcuts.exists_head
      exact ⟨[], gap, back, by simp, rfl, hdepth, hgap, hback, fun _ => hopener⟩
    | cons s' before =>
      obtain ⟨rfl, rfl⟩ := List.cons.inj hss
      obtain ⟨front, gap, back, rfl, hfront, hdepth', hrest⟩ := ih rfl
      refine ⟨s.tokens ++ front, gap, back, by simp, ?_, ?_, hrest⟩
      · rw [unended_append, hwhole, hdepth, hfront, List.flatMap_cons]
      · rw [List.append_assoc, depthAfterAll_append, hdepth]
        exact hdepth'

namespace Script

/-- The statements of a script hold its tokens in order, without the semicolons outside of all
    parentheses, and no statement is empty. The groups hold the statements in order. Between two
    statements that follow each other there are semicolons outside of all parentheses, or there is
    nothing, and then the first one opens a body. -/
theorem parts_ofText (t : Text) :
    (ofText t).statements.flatMap (·.tokens) = unended Token.kind 0 (ofText t).tokens ∧
      (∀ s ∈ (ofText t).statements, s.tokens ≠ []) ∧
      (ofText t).groups.flatMap (·.statements) = (ofText t).statements ∧
      ∀ before first second after, (ofText t).statements = before ++ first :: second :: after →
        ∃ front gap back, (ofText t).tokens = front ++ first.tokens ++ gap ++ second.tokens ++ back ∧
          unended Token.kind 0 front = before.flatMap (·.tokens) ∧
          depthAfterAll Token.kind 0 (front ++ first.tokens) = 0 ∧
          (∀ u ∈ gap, u.kind = .semicolon) ∧
          unended Token.kind 0 back = after.flatMap (·.tokens) ∧
          (gap = [] → first.opener?.isSome = true) := by
  have hcuts : Statement.Cuts (Token.scan t) (Statement.ofTokens (Token.scan t)) :=
    Statement.cuts_ofTokens fun u hu => Token.isRead_of_mem_scan hu
  refine ⟨hcuts.flatMap_tokens, fun s _ => s.nonempty, Group.flatMap_ofStatements _, ?_⟩
  exact fun before first second after hss => hcuts.exists_between hss

end Script

end SqlScript
