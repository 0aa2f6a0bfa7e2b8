import SqlScript.Proofs.Script.Ended

namespace SqlScript

/-!
# `CASE` expressions and the ends of bodies

An `END` closes a `CASE` expression or a body. A finished statement is asked for `END` and the word
of a condition side by side, whatever that `END` closes: where `FOR` comes right behind an expression,
as in `ORDER BY CASE ... END FOR UPDATE`, a body seems to be closed.

* `Token.endsMatch` — whether every `END` closes a `CASE` expression, matched like brackets;
* `Statement.RunsIntoCondition` — whether the word of a condition comes right behind an expression;
* `Group.eq_singleton_of_not_closes` — what closes no body ends no group but its own;
* `Script.closes_iff_of_endsMatch` — a statement whose `END`s all close expressions closes a body
  exactly when one of them runs into the word of a condition.
-/

/-! ### Expressions -/

namespace Token

/-- The number of `CASE` expressions that are open behind the tokens, when `count` are in front of
    them. -/
def casesBehind (count : Nat) (ts : List Token) : Nat := ts.foldl casesAfter count

/-- Whether every `END` among the tokens closes a `CASE` expression, when `count` are open in front
    of them. -/
def endsMatch (count : Nat) : List Token → Bool
  | [] => true
  | t :: ts => (!t.spells "END" || 0 < count) && endsMatch (t.casesAfter count) ts

/-- Where every `END` closes an expression, there is one open in front of each. -/
theorem casesBehind_pos {count : Nat} {before after : List Token} {e : Token}
    (h : endsMatch count (before ++ e :: after) = true) (he : e.spells "END" = true) :
    0 < casesBehind count before := by
  induction before generalizing count with
  | nil =>
    rw [List.nil_append, endsMatch, he, Bool.and_eq_true, Bool.not_true, Bool.false_or] at h
    exact of_decide_eq_true h.1
  | cons t before ih =>
    rw [List.cons_append, endsMatch, Bool.and_eq_true] at h
    exact ih h.2

end Token

namespace Statement

/-- A condition ends where `END` and the word of a condition stand side by side. -/
theorem hasConditionEnd_iff {ts : List Token} : hasConditionEnd ts = true ↔
    ∃ before e w after, ts = before ++ e :: w :: after ∧ e.spells "END" = true ∧
      isConditionKey w.key = true := by
  constructor
  · intro h
    induction ts with
    | nil => exact absurd h (by decide)
    | cons t ts ih =>
      cases ts with
      | nil => exact absurd h (by simp [hasConditionEnd])
      | cons u ts =>
        rw [hasConditionEnd_cons_cons, Bool.or_eq_true, Bool.and_eq_true] at h
        rcases h with ⟨ht, hu⟩ | h
        · exact ⟨[], t, u, ts, rfl, ht, hu⟩
        · obtain ⟨before, e, w, after, hsplit, he, hw⟩ := ih h
          exact ⟨t :: before, e, w, after, by rw [hsplit]; rfl, he, hw⟩
  · rintro ⟨before, e, w, after, rfl, he, hw⟩
    refine hasConditionEnd_append_right before ?_
    rw [hasConditionEnd_cons_cons, he, hw]
    rfl

/-- Whether the word of a condition comes right behind the `END` of a `CASE` expression. -/
def RunsIntoCondition (s : Statement) : Prop :=
  ∃ before e w after, s.significant = before ++ e :: w :: after ∧ e.spells "END" = true ∧
    0 < Token.casesBehind 0 before ∧ isConditionKey w.key = true

variable {s : Statement}

/-- Where every `END` closes an expression, a condition seems to end only behind an expression. -/
theorem hasConditionEnd_iff_of_endsMatch (h : Token.endsMatch 0 s.significant = true) :
    hasConditionEnd s.significant = true ↔ s.RunsIntoCondition := by
  rw [hasConditionEnd_iff]
  constructor
  · rintro ⟨before, e, w, after, hsplit, he, hw⟩
    rw [hsplit] at h
    exact ⟨before, e, w, after, hsplit, he, Token.casesBehind_pos h he, hw⟩
  · rintro ⟨before, e, w, after, hsplit, he, -, hw⟩
    exact ⟨before, e, w, after, hsplit, he, hw⟩

/-! ### Statements that close nothing -/

/-- A statement has one of several verbs when it has the first one or one of the others. -/
theorem hasVerb_cons (v : Verb) (verbs : List Verb) :
    s.hasVerb (v :: verbs) = (s.hasVerb [v] || s.hasVerb verbs) := by
  unfold hasVerb
  cases s.verb? with
  | none => rfl
  | some w => simp

/-- What closes no body leaves no fewer bodies open. -/
theorem depthChange_nonneg (h : s.closes = false) : 0 ≤ s.depthChange := by
  rw [depthChange, h]
  split <;> simp

end Statement

/-- What closes no body is indented as far as its surroundings. -/
theorem indentations_cons_of_not_closes {s : Statement} (h : s.closes = false) (width : Nat)
    (indent : Int) (rest : List Statement) : indentations width indent (s :: rest)
      = (s, indent) :: indentations width (indent + if s.opens then (width : Int) else 0) rest := by
  simp [indentations, h]

/-- What closes no body ends no group with other statements in it, unless the script ends there. -/
theorem Group.eq_singleton_of_not_closes {g : Group} {current : List Statement} {depth : Int}
    {ss : List Statement} (hopen : current = [] ∨ 0 < depth) (hg : g ∈ gather current depth ss)
    (hending : g.ending ≠ .unclosed) (hlast : g.last.closes = false) : g.statements = [g.last] := by
  induction ss generalizing current depth with
  | nil =>
    unfold gather at hg
    split at hg
    · exact absurd hg (by simp)
    · rw [List.mem_singleton.mp hg] at hending
      exact absurd rfl hending
  | cons s rest ih =>
    unfold gather at hg
    simp only at hg
    split at hg
    · rename_i hdepth
      exact ih (.inr hdepth) hg
    · rename_i hdepth
      rcases List.mem_cons.mp hg with rfl | hg
      · -- The counter was not lowered, so that no body was open in front of the statement.
        have hs : (Group.mk (current ++ [s]) (by simp)
            (if depth + s.depthChange < 0 then .unmatched else .closed)).last = s := by
          simp [last]
        rw [hs] at hlast ⊢
        have hchange := Statement.depthChange_nonneg hlast
        obtain rfl : current = [] := hopen.resolve_right (by omega)
        rfl
      · exact ih (.inl rfl) hg

namespace Script

/-- A statement of a verb other than `END`, `ELSE` and `ELSEIF` in which every `END` closes a `CASE`
    expression never closes a compound body, and it closes a conditional one exactly when the word
    of a condition comes right behind an expression. Where none does, the statement leaves no fewer
    bodies open, ends no group but its own, and is indented as far as its surroundings. -/
theorem closes_iff_of_endsMatch (t : Text) {s : Statement}
    (hverb : s.hasVerb [.END, .ELSE, .ELSEIF] = false)
    (hends : Token.endsMatch 0 s.significant = true) :
    s.closesCompound = false ∧ (s.closesConditional = true ↔ s.RunsIntoCondition) ∧
      (¬s.RunsIntoCondition → 0 ≤ s.depthChange ∧
        (∀ g ∈ (ofText t).groups, g.last = s → g.ending ≠ .unclosed → g.statements = [s]) ∧
        ∀ (width : Nat) (indent : Int) (rest : List Statement),
          SqlScript.indentations width indent (s :: rest) = (s, indent)
            :: SqlScript.indentations width (indent + if s.opens then (width : Int) else 0) rest) := by
  rw [Statement.hasVerb_cons, Bool.or_eq_false_iff] at hverb
  have hcompound : s.closesCompound = false := by
    rw [Statement.closesCompound, hverb.1, Bool.false_and]
  have hconditional : s.closesConditional = true ↔ s.RunsIntoCondition := by
    rw [Statement.closesConditional, hverb.2, Bool.false_or,
      Statement.hasConditionEnd_iff_of_endsMatch hends]
  refine ⟨hcompound, hconditional, fun hruns => ?_⟩
  have hcloses : s.closes = false := by
    rw [Statement.closes, hcompound, Bool.false_or, ← Bool.not_eq_true, hconditional]
    exact hruns
  refine ⟨Statement.depthChange_nonneg hcloses, fun g hg hlast hending => ?_,
    indentations_cons_of_not_closes hcloses⟩
  rw [← hlast] at hcloses ⊢
  exact Group.eq_singleton_of_not_closes (.inl rfl) hg hending hcloses

/-- An expression at the end of a statement, in a body that goes on behind it. -/
theorem closes_iff_of_endsMatch_order :
    let t := "BEGIN SELECT X FROM T ORDER BY CASE WHEN A THEN 1 END; END".toList
    ∃ s ∈ (ofText t).statements, s.hasVerb [.END, .ELSE, .ELSEIF] = false ∧
      Token.endsMatch 0 s.significant = true ∧ s.significant.any (·.spells "END") = true ∧
      s.closesCompound = false ∧ (s.closesConditional = true ↔ s.RunsIntoCondition) ∧
      0 ≤ s.depthChange ∧
      ∀ g ∈ (ofText t).groups, g.last = s → g.ending ≠ .unclosed → g.statements = [s] := by
  intro t
  have hs : ∃ s ∈ (ofText t).statements, s.hasVerb [.END, .ELSE, .ELSEIF] = false ∧
      Token.endsMatch 0 s.significant = true ∧ s.significant.any (·.spells "END") = true ∧
      s.closesConditional = false := by
    decide +kernel
  obtain ⟨s, hmem, hverb, hends, hend, hcloses⟩ := hs
  obtain ⟨hcompound, hconditional, hothers⟩ := closes_iff_of_endsMatch t hverb hends
  obtain ⟨hdepth, hgroup, -⟩ := hothers fun hruns => by
    rw [hconditional.mpr hruns] at hcloses
    exact absurd hcloses (by decide)
  exact ⟨s, hmem, hverb, hends, hend, hcompound, hconditional, hdepth, hgroup⟩

/-- Where `FOR` comes right behind an expression, the body around the statement is closed with it,
    and the `END` of the body closes nothing. -/
theorem closes_of_runsIntoCondition :
    let t := "BEGIN SELECT X FROM T ORDER BY CASE WHEN A THEN 1 END FOR UPDATE; END".toList
    (ofText t).statements.map (fun s => (s.verb?, Token.endsMatch 0 s.significant, s.closes))
        = [(some .BEGIN, true, false), (some .SELECT, true, true), (some .END, false, true)] ∧
      (ofText t).groups.map (fun g => (g.statements.length, g.ending))
        = [(2, .closed), (1, .unmatched)] := by
  decide +kernel

end Script

end SqlScript
