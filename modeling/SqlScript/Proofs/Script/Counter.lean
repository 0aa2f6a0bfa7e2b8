import Mathlib.Algebra.Order.Ring.Int
import Mathlib.Tactic.Common
import SqlScript.Layout.Page

namespace SqlScript

/-!
# Open bodies are counted twice

Statements are arranged into groups by a counter of the bodies that are open, and they are indented
by an amount that is kept apart from it: the counter starts anew when it falls to zero or below, and
the indentation with each group.

* `Statement.lowered` and `Statement.raised` — the two steps in which a statement changes the counter;
* `Statement.counted` — the counter at each statement of a sequence;
* `Group.IsCounted` — what the counter says about the statements of a group;
* `Group.indentations_gather` — one statement after the other, the indentation is that of the
  counter;
* `Script.format_eq_counted` — the same of a script; where the counter is below zero, and where the
  groups leave it.
-/

/-! ### The counter -/

namespace Statement

/-- The counter of open bodies behind the end that the statement may be, and in front of the body
    that it may open. -/
def lowered (s : Statement) (count : Int) : Int := count - if s.closes then 1 else 0

/-- The counter of open bodies behind the statement. -/
def raised (s : Statement) (count : Int) : Int := s.lowered count + if s.opens then 1 else 0

/-- The statements with the counter at each of them, where it is `count` in front of the first one.
    It starts anew when a statement leaves it at zero or below. -/
def counted (count : Int) : List Statement → List (Statement × Int)
  | [] => []
  | s :: rest => (s, s.lowered count) :: counted (max (s.raised count) 0) rest

/-- What statements add to the number of open bodies, whatever is open in front of them. -/
def totalChange (ss : List Statement) : Int := (ss.map depthChange).sum

/-- A statement raises the counter by its change of depth. -/
theorem raised_eq (s : Statement) (count : Int) : s.raised count = count + s.depthChange := by
  unfold raised lowered depthChange
  omega

@[simp] theorem totalChange_nil : totalChange [] = 0 := rfl

/-- The statements of two sequences change the counter by the sum of both. -/
@[simp] theorem totalChange_append (ss rs : List Statement) :
    totalChange (ss ++ rs) = totalChange ss + totalChange rs := by
  rw [totalChange, List.map_append, List.sum_append]
  rfl

/-- One statement changes the counter by its own change of depth. -/
@[simp] theorem totalChange_singleton (s : Statement) : totalChange [s] = s.depthChange := by
  rw [totalChange, List.map_singleton, List.sum_singleton]

end Statement

open Statement (totalChange counted)

/-! ### Groups -/

namespace Group

/-- What the counter says about a group, which it enters at zero. -/
structure IsCounted (g : Group) : Prop where
  /-- Behind each statement but the last one, a body is open. -/
  inside : ∀ before after, g.statements = before ++ after → before ≠ [] → after ≠ [] →
    1 ≤ totalChange before
  /-- How the group ends is where it leaves the counter. -/
  ending : g.ending = if 0 < totalChange g.statements then .unclosed
    else if totalChange g.statements < 0 then .unmatched else .closed

/-- Whether the counter is at one or more behind each of the statements. -/
def StaysInside (ss : List Statement) : Prop :=
  ∀ before after, ss = before ++ after → before ≠ [] → 1 ≤ totalChange before

/-- No statements leave no body. -/
theorem staysInside_nil : StaysInside [] := by
  intro before after hsplit hne
  exact absurd (List.append_eq_nil_iff.mp hsplit.symm).1 hne

/-- One more statement. -/
theorem StaysInside.concat {ss : List Statement} (h : StaysInside ss) {s : Statement}
    (hs : 0 < totalChange ss + s.depthChange) : StaysInside (ss ++ [s]) := by
  intro before after hsplit hne
  rcases List.eq_nil_or_concat after with rfl | ⟨after', u, rfl⟩
  · rw [List.append_nil] at hsplit
    rw [← hsplit, Statement.totalChange_append, Statement.totalChange_singleton]
    omega
  · rw [List.concat_eq_append, ← List.append_assoc] at hsplit
    exact h before after' (List.append_inj' hsplit rfl).1 hne

/-- The groups that are made of statements are as the counter says, and each of them but the last one
    leaves it at zero or below. -/
theorem isCounted_gather {current : List Statement} {depth : Int} (hcurrent : StaysInside current)
    (hdepth : depth = totalChange current) (ss : List Statement) :
    (∀ g ∈ gather current depth ss, g.IsCounted) ∧
      ∀ g ∈ (gather current depth ss).dropLast, totalChange g.statements ≤ 0 := by
  induction ss generalizing current depth with
  | nil =>
    unfold gather
    split
    · exact ⟨by simp, by simp⟩
    · rename_i hne
      refine ⟨fun g hg => ?_, by simp⟩
      obtain rfl := List.mem_singleton.mp hg
      have hopen : 0 < totalChange current := hcurrent current [] (by simp) hne
      exact ⟨fun before after hsplit hbefore _ => hcurrent before after hsplit hbefore,
        (if_pos hopen).symm⟩
  | cons s rest ih =>
    have hbehind : totalChange (current ++ [s]) = depth + s.depthChange := by
      rw [Statement.totalChange_append, Statement.totalChange_singleton, hdepth]
    unfold gather
    simp only
    split
    · rename_i hpos
      exact ih (hcurrent.concat (by omega)) hbehind.symm
    · rename_i hpos
      -- The group ends here, and the next one starts with the counter at zero.
      have hzero : (0 : Int) = totalChange [] := Statement.totalChange_nil.symm
      obtain ⟨hgroups, hlast⟩ := ih staysInside_nil hzero
      refine ⟨List.forall_mem_cons.mpr ⟨⟨fun before after hsplit hbefore hafter => ?_, ?_⟩,
        hgroups⟩, fun g hg => ?_⟩
      · obtain ⟨after', u, rfl⟩ := (List.eq_nil_or_concat after).resolve_left hafter
        rw [List.concat_eq_append, ← List.append_assoc] at hsplit
        exact hcurrent before after' (List.append_inj' hsplit rfl).1 hbefore
      · show (if depth + s.depthChange < 0 then Ending.unmatched else .closed)
          = if 0 < totalChange (current ++ [s]) then .unclosed
            else if totalChange (current ++ [s]) < 0 then .unmatched else .closed
        rw [hbehind, if_neg hpos]
      · cases hmore : gather [] 0 rest with
        | nil =>
          rw [hmore] at hg
          exact absurd hg (by simp)
        | cons g' more =>
          rw [hmore] at hlast hg
          rw [List.dropLast_cons_cons] at hg
          rcases List.mem_cons.mp hg with rfl | hg
          · show totalChange (current ++ [s]) ≤ 0
            omega
          · exact hlast g hg

end Group

/-! ### Indentations -/

/-- A statement that closes is laid out one level further out, and the rest goes on from where the
    counter is behind it. -/
theorem indentations_cons (width : Nat) (indent : Int) (s : Statement) (rest : List Statement) :
    indentations width indent (s :: rest)
      = (s, indent - if s.closes then (width : Int) else 0)
        :: indentations width (indent + width * s.depthChange) rest := by
  have hnext : (indent - if s.closes then (width : Int) else 0)
      + (if s.opens then (width : Int) else 0) = indent + width * s.depthChange := by
    unfold Statement.depthChange
    split <;> split <;> omega
  rw [indentations, hnext]

/-- The second one of two sequences is laid out from where the counter is behind the first one. -/
theorem indentations_append (width : Nat) (indent : Int) (ss rs : List Statement) :
    indentations width indent (ss ++ rs)
      = indentations width indent ss ++ indentations width (indent + width * totalChange ss) rs := by
  induction ss generalizing indent with
  | nil => simp [indentations]
  | cons s ss ih =>
    have hchange : totalChange (s :: ss) = s.depthChange + totalChange ss := List.sum_cons
    rw [List.cons_append, indentations_cons, indentations_cons, ih, List.cons_append, hchange,
      Int.mul_add, Int.add_assoc]

/-- The indentation at a statement is that of the counter. -/
theorem width_mul_lowered (width : Nat) (s : Statement) (count : Int) :
    (width : Int) * s.lowered count = width * count - if s.closes then (width : Int) else 0 := by
  unfold Statement.lowered
  rw [Int.mul_sub]
  split <;> simp

/-- Statements that are arranged into groups are indented as the counter says. -/
theorem Group.indentations_gather (width : Nat) {current : List Statement} {depth : Int}
    (hdepth : depth = totalChange current) (ss : List Statement) :
    (gather current depth ss).flatMap (fun g => indentations width 0 g.statements)
      = indentations width 0 current
        ++ (counted depth ss).map fun p => (p.1, (width : Int) * p.2) := by
  induction ss generalizing current depth with
  | nil =>
    unfold gather
    split
    · rename_i hnil
      subst hnil
      rfl
    · simp [counted]
  | cons s rest ih =>
    have hbehind : depth + s.depthChange = totalChange (current ++ [s]) := by
      rw [Statement.totalChange_append, Statement.totalChange_singleton, hdepth]
    -- The statement is indented behind those of its group.
    have hown : indentations width 0 (current ++ [s])
        = indentations width 0 current ++ [(s, (width : Int) * s.lowered depth)] := by
      rw [indentations_append, indentations_cons, width_mul_lowered, hdepth, Int.zero_add]
      rfl
    unfold gather
    simp only [counted, List.map_cons, Statement.raised_eq]
    split
    · rename_i hpos
      rw [ih hbehind, hown, List.append_assoc, List.singleton_append,
        Int.max_eq_left (Int.le_of_lt hpos)]
    · rename_i hpos
      have hzero : (0 : Int) = totalChange [] := Statement.totalChange_nil.symm
      rw [List.flatMap_cons, ih hzero, hown, List.append_assoc, List.singleton_append,
        Int.max_eq_right (by omega)]
      rfl

/-- The indentation of a statement is that of the counter behind the statements in front of it. -/
theorem exists_of_mem_indentations {width : Nat} {indent : Int} {ss : List Statement}
    {p : Statement × Int} (hp : p ∈ indentations width indent ss) : ∃ before after,
      ss = before ++ p.1 :: after ∧ p.2 = indent + width * p.1.lowered (totalChange before) := by
  induction ss generalizing indent with
  | nil => exact absurd hp (by simp [indentations])
  | cons s ss ih =>
    rw [indentations_cons] at hp
    rcases List.mem_cons.mp hp with rfl | hp
    · refine ⟨[], ss, rfl, ?_⟩
      rw [width_mul_lowered, Statement.totalChange_nil, Int.mul_zero, Int.zero_sub]
      exact Int.sub_eq_add_neg
    · obtain ⟨before, after, rfl, hindent⟩ := ih hp
      have hchange : totalChange (s :: before) = s.depthChange + totalChange before :=
        List.sum_cons
      refine ⟨s :: before, after, rfl, ?_⟩
      rw [hindent, width_mul_lowered, width_mul_lowered, hchange, Int.mul_add]
      omega

/-- A statement that is indented by less than nothing closes a body where none is open, and is the
    only one of its group. -/
theorem Group.IsCounted.eq_singleton {g : Group} (h : g.IsCounted) {width : Nat}
    {p : Statement × Int} (hp : p ∈ indentations width 0 g.statements) (hneg : p.2 < 0) :
    g.statements = [p.1] ∧ p.1.closes = true ∧ p.2 = -width ∧
      g.ending = if p.1.opens then .closed else .unmatched := by
  obtain ⟨before, after, hsplit, hindent⟩ := exists_of_mem_indentations hp
  rw [Int.zero_add, width_mul_lowered] at hindent
  -- A body is open behind all statements of the group that have others behind them.
  have hbefore : before = [] := by
    by_contra hne
    have hopen := h.inside before (p.1 :: after) hsplit hne (by simp)
    have hwidth : (width : Int) ≤ width * totalChange before :=
      le_mul_of_one_le_right (Int.natCast_nonneg width) hopen
    rw [hindent] at hneg
    split at hneg <;> omega
  subst hbefore
  have hcloses : p.1.closes = true := by
    by_contra hcloses
    rw [hindent, if_neg hcloses] at hneg
    simp at hneg
  have hafter : after = [] := by
    by_contra hne
    have hopen := h.inside [p.1] after hsplit (by simp) hne
    rw [Statement.totalChange_singleton, Statement.depthChange, if_pos hcloses] at hopen
    split at hopen <;> omega
  subst hafter
  refine ⟨hsplit, hcloses, ?_, ?_⟩
  · rw [hindent, if_pos hcloses]
    simp
  · rw [h.ending, hsplit, List.nil_append, Statement.totalChange_singleton, Statement.depthChange,
      if_pos hcloses]
    cases p.1.opens <;> rfl

/-! ### Scripts -/

namespace Script

/-- A script is formatted with its statements indented as deep as the counter of open bodies says
    that they stand, behind the end that each of them may be and in front of the body that it may
    open. An indentation is below zero only where a statement closes a body while none is open, which
    is then the only one of its group. Such a statement is unmatched, or it is an `ELSE` or `ELSEIF`
    on its own: that closes a body and opens one, so that none is missing behind it and the group is
    a closed one. Behind each statement of a group but the last one a body is open, and no group but
    the last one leaves one open. -/
theorem format_eq_counted (style : Style) (t : Text) :
    (ofText t).indentations style.spacing.indentWidth
        = (counted 0 (ofText t).statements).map
            (fun p => (p.1, (style.spacing.indentWidth : Int) * p.2)) ∧
      style.format t = (style.layOut none ((counted 0 (ofText t).statements).map
          fun p => (p.1, (style.spacing.indentWidth : Int) * p.2))).map
        (write style.casing (Text.lineBreak t)) ∧
      (∀ g ∈ (ofText t).groups,
        ∀ p ∈ SqlScript.indentations style.spacing.indentWidth 0 g.statements, 0 ≤ p.2 ∨
          g.statements = [p.1] ∧ p.1.closes = true ∧ p.2 = -style.spacing.indentWidth ∧
            g.ending = if p.1.opens then .closed else .unmatched) ∧
      (∀ g ∈ (ofText t).groups, g.IsCounted) ∧
      ∀ g ∈ (ofText t).groups.dropLast, totalChange g.statements ≤ 0 := by
  obtain ⟨hgroups, hlast⟩ := Group.isCounted_gather Group.staysInside_nil rfl (ofText t).statements
  have hindentations : (ofText t).indentations style.spacing.indentWidth
      = (counted 0 (ofText t).statements).map
          (fun p => (p.1, (style.spacing.indentWidth : Int) * p.2)) :=
    Group.indentations_gather _ rfl _
  refine ⟨hindentations, ?_, fun g hg p hp => ?_, hgroups, hlast⟩
  · rw [← hindentations]
    rfl
  · by_cases hneg : p.2 < 0
    · exact .inr ((hgroups g hg).eq_singleton hp hneg)
    · exact .inl (Int.not_lt.mp hneg)

end Script

end SqlScript
