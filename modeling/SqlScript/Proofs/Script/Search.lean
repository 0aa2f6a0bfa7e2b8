import SqlScript.Proofs.Script.Locate

namespace SqlScript

/-!
# What is found at an offset

The look-ups by offset find what a search through all groups and all statements would find.

* `findIdx?_eq_some_iff_of_pairwise` — where no two elements satisfy `p`, a search finds the one that
  does;
* `Script.statementIndex?_eq` and `Script.statementAt?_eq` — the statement in the group at an offset is
  the one among all statements;
* `Script.located_ofText` — a group, and a statement, is found at an offset if and only if it covers
  the offset, and there is no other one that does.
-/

/-! ### Searches -/

section

variable {α : Type} {l : List α} {p : α → Bool}

/-- Where no two elements satisfy `p`, a search finds the one that does. -/
theorem findIdx?_eq_some_iff_of_pairwise (h : l.Pairwise fun a b => p a = true → p b = false)
    {n : Nat} : l.findIdx? p = some n ↔ ∃ a, l[n]? = some a ∧ p a = true := by
  rw [List.findIdx?_eq_some_iff_getElem]
  constructor
  · rintro ⟨hn, hp, -⟩
    exact ⟨l[n], List.getElem?_eq_getElem hn, hp⟩
  · rintro ⟨a, ha, hp⟩
    obtain ⟨hn, rfl⟩ := List.getElem?_eq_some_iff.mp ha
    refine ⟨hn, hp, fun i hi hpi => ?_⟩
    -- An earlier one would be a second element that satisfies `p`.
    have hne := List.pairwise_iff_getElem.mp h i n (by omega) hn hi hpi
    rw [hp] at hne
    exact absurd hne (by decide)

end

/-- Of two places that do not overlap, no more than one covers an offset. -/
theorem Span.covers_eq_false {p q : Span} {offset : Int} (h : p.stop ≤ q.start)
    (hp : p.covers offset = true) : q.covers offset = false := by
  simp only [covers, Bool.and_eq_true, decide_eq_true_eq] at hp
  simp only [covers, Bool.and_eq_false_iff, decide_eq_false_iff_not]
  omega

/-- A place covers what a place within it covers. -/
theorem Span.covers_of_within {p q : Span} {offset : Int}
    (h : p.start ≤ q.start ∧ q.stop ≤ p.stop) (hq : q.covers offset = true) :
    p.covers offset = true := by
  simp only [covers, Bool.and_eq_true, decide_eq_true_eq] at hq ⊢
  omega

namespace Script

variable {t : Text} {offset : Int}

/-! ### Groups -/

/-- Only one group covers an offset. -/
theorem pairwise_covers_groups (t : Text) (offset : Int) :
    (ofText t).groups.Pairwise fun g h =>
      g.span.covers offset = true → h.span.covers offset = false :=
  (disjoint_groups t).imp Span.covers_eq_false

/-- The group at an offset is the one among all groups that covers it. -/
theorem groupIndex?_eq (t : Text) (offset : Int) :
    (ofText t).groupIndex? offset
      = (ofText t).groups.findIdx? fun g => g.span.covers offset := by
  refine Option.ext fun n => ?_
  rw [groupIndex?_eq_some_iff, findIdx?_eq_some_iff_of_pairwise (pairwise_covers_groups t offset)]

/-- The group itself is the one that a search through all groups finds. -/
theorem groupAt?_eq (t : Text) (offset : Int) :
    (ofText t).groupAt? offset = (ofText t).groups.find? fun g => g.span.covers offset := by
  rw [groupAt?, groupIndex?_eq, List.find?_eq_bind_findIdx?_getElem?]

/-! ### Statements -/

/-- Only one statement covers an offset. -/
theorem pairwise_covers_statements (t : Text) (offset : Int) :
    (ofText t).statements.Pairwise fun s s' =>
      s.span.covers offset = true → s'.span.covers offset = false :=
  (disjoint_statements t).imp Span.covers_eq_false

/-- A group covers what its statements cover. -/
theorem covers_of_mem_statements {g : Group} (hg : g ∈ (ofText t).groups) {s : Statement}
    (hs : s ∈ g.statements) (hcovers : s.span.covers offset = true) :
    g.span.covers offset = true := by
  refine Span.covers_of_within (g.reaches.within (inOrder_of_mem_groups hg) s.reaches ?_) hcovers
  exact fun u hu => List.mem_flatMap.mpr ⟨s, hs, hu⟩

/-- Where no group covers an offset, no statement does. -/
theorem covers_eq_false_of_groups {gs : List Group} (hgs : gs ⊆ (ofText t).groups)
    (h : ∀ g ∈ gs, g.span.covers offset = false) :
    ∀ s ∈ gs.flatMap (·.statements), s.span.covers offset = false := by
  intro s hs
  obtain ⟨g, hg, hs⟩ := List.mem_flatMap.mp hs
  by_contra hcovers
  rw [Bool.not_eq_false] at hcovers
  have := covers_of_mem_statements (hgs hg) hs hcovers
  rw [h g hg] at this
  exact absurd this (by decide)

/-- Where a group covers an offset, the statements of the other groups do not. -/
theorem exists_split_of_covers {n : Nat} {g : Group} (hget : (ofText t).groups[n]? = some g)
    (hcovers : g.span.covers offset = true) :
    ∃ after, (ofText t).statements
        = ((ofText t).groups.take n).flatMap (·.statements) ++ (g.statements ++ after) ∧
      (∀ s ∈ ((ofText t).groups.take n).flatMap (·.statements), s.span.covers offset = false) ∧
      ∀ s ∈ after, s.span.covers offset = false := by
  obtain ⟨hn, hg⟩ := List.getElem?_eq_some_iff.mp hget
  have hsplit : (ofText t).groups
      = (ofText t).groups.take n ++ g :: (ofText t).groups.drop (n + 1) := by
    rw [← hg, ← List.drop_eq_getElem_cons, List.take_append_drop]
  have hpairwise := pairwise_covers_groups t offset
  rw [hsplit] at hpairwise
  -- The groups are those ahead of the one that covers the offset, this one, and those behind it.
  obtain ⟨-, hbehind, hahead⟩ := List.pairwise_append.mp hpairwise
  refine ⟨((ofText t).groups.drop (n + 1)).flatMap (·.statements), ?_, ?_, ?_⟩
  · rw [← flatMap_statements, ← List.flatMap_cons, ← List.flatMap_append, ← hsplit]
  · refine covers_eq_false_of_groups (List.take_subset n _) fun h hh => ?_
    by_contra hother
    rw [Bool.not_eq_false] at hother
    have := hahead h hh g (List.mem_cons_self ..) hother
    rw [hcovers] at this
    exact absurd this (by decide)
  · refine covers_eq_false_of_groups (List.drop_subset _ _) fun h hh => ?_
    exact (List.pairwise_cons.mp hbehind).1 h hh hcovers

/-- Where no group is found, no statement covers the offset. -/
theorem covers_eq_false_of_groupIndex? (h : (ofText t).groupIndex? offset = none) :
    ∀ s ∈ (ofText t).statements, s.span.covers offset = false := by
  rw [groupIndex?_eq, List.findIdx?_eq_none_iff] at h
  rw [← flatMap_statements]
  exact covers_eq_false_of_groups (List.Subset.refl _) h

/-- The statement at an offset is the one among all statements that covers it. -/
theorem statementIndex?_eq (t : Text) (offset : Int) :
    (ofText t).statementIndex? offset
      = (ofText t).statements.findIdx? fun s => s.span.covers offset := by
  unfold statementIndex?
  cases hindex : (ofText t).groupIndex? offset with
  | none =>
    rw [Option.bind_none, List.findIdx?_eq_none_iff.mpr (covers_eq_false_of_groupIndex? hindex)]
  | some n =>
    obtain ⟨g, hget, hcovers⟩ := groupIndex?_eq_some_iff.mp hindex
    obtain ⟨after, hsplit, hbefore, hafter⟩ := exists_split_of_covers hget hcovers
    rw [Option.bind_some, hget, Option.bind_some, hsplit, List.findIdx?_append,
      List.findIdx?_eq_none_iff.mpr hbefore, List.findIdx?_append,
      List.findIdx?_eq_none_iff.mpr hafter]
    simp [Nat.add_comm]

/-- The statement itself is the one that a search through all statements finds. -/
theorem statementAt?_eq (t : Text) (offset : Int) :
    (ofText t).statementAt? offset
      = (ofText t).statements.find? fun s => s.span.covers offset := by
  unfold statementAt? groupAt?
  cases hindex : (ofText t).groupIndex? offset with
  | none =>
    have hnone := covers_eq_false_of_groupIndex? hindex
    rw [Option.bind_none, Option.bind_none, eq_comm, List.find?_eq_none]
    simpa using hnone
  | some n =>
    obtain ⟨g, hget, hcovers⟩ := groupIndex?_eq_some_iff.mp hindex
    obtain ⟨after, hsplit, hbefore, hafter⟩ := exists_split_of_covers hget hcovers
    have hnone : ∀ l : List Statement, (∀ s ∈ l, s.span.covers offset = false) →
        l.find? (fun s => s.span.covers offset) = none := fun l hl =>
      List.find?_eq_none.mpr fun s hs => by simp [hl s hs]
    rw [Option.bind_some, hget, Option.bind_some, hsplit, List.find?_append, hnone _ hbefore,
      Option.none_or, List.find?_append, hnone _ hafter, Option.or_none]

/-! ### Search among all groups and statements -/

/-- At an offset there is found what a search through all groups, and through all statements, finds. A
    group, and a statement, is found if and only if it starts at the offset or before it and ends
    behind it, so that no other one does. -/
theorem located_ofText (t : Text) (offset : Int) :
    (ofText t).groupAt? offset = (ofText t).groups.find? (fun g => g.span.covers offset) ∧
      (∀ n, (ofText t).groupIndex? offset = some n ↔
        ∃ g, (ofText t).groups[n]? = some g ∧ g.span.start ≤ offset ∧ offset < g.span.stop) ∧
      (ofText t).statementAt? offset
        = (ofText t).statements.find? (fun s => s.span.covers offset) ∧
      ∀ n, (ofText t).statementIndex? offset = some n ↔
        ∃ s, (ofText t).statements[n]? = some s ∧ s.span.start ≤ offset ∧ offset < s.span.stop := by
  have hcovers : ∀ p : Span, p.covers offset = true ↔ p.start ≤ offset ∧ offset < p.stop :=
    fun p => by simp [Span.covers]
  refine ⟨groupAt?_eq t offset, fun n => ?_, statementAt?_eq t offset, fun n => ?_⟩
  · simp only [groupIndex?_eq_some_iff, hcovers]
  · rw [statementIndex?_eq,
      findIdx?_eq_some_iff_of_pairwise (pairwise_covers_statements t offset)]
    simp only [hcovers]

end Script

end SqlScript
