import SqlScript.Script.Basic

namespace SqlScript

/-!
# What is at an offset

* `firstIndex` is a binary search, and `firstIndex_isBoundary` says where it ends;
* `Script.groupIndex?` finds the group at an offset by binary search over the starts of groups;
* `Script.statementIndex?` finds the statement at an offset, in that group.

A group reaches from the start of its first statement to the end of its last one. There can be
offsets between two groups, and between two statements of a group.
-/

/-- The first index from `low` up to `high` at which `p` holds, provided that it holds at all
    indices after that one. It is `high` when `p` holds at none of them. -/
def firstIndex (p : Nat → Bool) (low high : Nat) : Nat :=
  if low < high then
    let middle := (low + high) / 2
    if p middle then firstIndex p low middle else firstIndex p (middle + 1) high
  else low
termination_by high - low

/-- The search ends between its bounds, and where `p` changes: `p` does not hold right before that
    index, and holds at it. No order is asked of `p`. -/
theorem firstIndex_isBoundary (p : Nat → Bool) {low high : Nat} (h : low ≤ high) :
    low ≤ firstIndex p low high ∧ firstIndex p low high ≤ high ∧
      (∀ i, low ≤ i → i + 1 = firstIndex p low high → p i = false) ∧
      (firstIndex p low high < high → p (firstIndex p low high) = true) := by
  fun_induction firstIndex p low high with
  | case1 low high hlt middle hp ih =>
    -- `p` holds in the middle, which the search for the lower half can end at.
    obtain ⟨hlow, hhigh, hbefore, hat⟩ := ih (by omega)
    refine ⟨hlow, by omega, hbefore, fun _ => ?_⟩
    rcases Nat.lt_or_eq_of_le hhigh with hlt' | heq
    · exact hat hlt'
    · rw [heq]
      exact hp
  | case2 low high hlt middle hp ih =>
    -- `p` does not hold in the middle, which is right before the upper half.
    obtain ⟨hlow, hhigh, hbefore, hat⟩ := ih (by omega)
    refine ⟨by omega, hhigh, fun i _ hi => ?_, hat⟩
    rcases Nat.lt_or_ge middle i with hlt' | hge
    · exact hbefore i hlt' hi
    · obtain rfl : i = middle := by omega
      simpa using hp
  | case3 low high hlt =>
    exact ⟨Nat.le_refl low, h, fun i hi hi' => by omega, fun h' => absurd h' hlt⟩

/-- The search finds the index from which on `p` holds. -/
theorem firstIndex_eq {p : Nat → Bool} {low high k : Nat} (hlow : low ≤ k) (hhigh : k ≤ high)
    (hbefore : ∀ i, low ≤ i → i < k → p i = false) (hafter : ∀ i, k ≤ i → i < high → p i = true) :
    firstIndex p low high = k := by
  obtain ⟨hl, hh, hpred, hat⟩ := firstIndex_isBoundary p (Nat.le_trans hlow hhigh)
  generalize firstIndex p low high = r at *
  rcases Nat.lt_trichotomy r k with hlt | heq | hgt
  · exact absurd (hat (by omega)) (by simp [hbefore r hl hlt])
  · exact heq
  · obtain ⟨i, rfl⟩ : ∃ i, r = i + 1 := ⟨r - 1, by omega⟩
    exact absurd (hpred i (by omega) rfl) (by simp [hafter i (by omega) (by omega)])

/-- Whether the offset lies in the span. -/
def Span.covers (s : Span) (offset : Int) : Bool := s.start ≤ offset && offset < s.stop

namespace Script

/-- The number of groups that start at the offset or before it. -/
def groupsUpTo (s : Script) (offset : Int) : Nat :=
  firstIndex (fun n => s.groups[n]?.any fun g => offset < g.span.start) 0 s.groups.length

/-- The index of the group at the offset. -/
def groupIndex? (s : Script) (offset : Int) : Option Nat :=
  match s.groupsUpTo offset with
  | 0 => none
  | n + 1 => if s.groups[n]?.any fun g => offset < g.span.stop then some n else none

/-- The group at the offset. -/
def groupAt? (s : Script) (offset : Int) : Option Group :=
  (s.groupIndex? offset).bind fun n => s.groups[n]?

/-- The index of the statement at the offset, among all statements of the script. -/
def statementIndex? (s : Script) (offset : Int) : Option Nat :=
  (s.groupIndex? offset).bind fun n =>
    let before := (s.groups.take n).flatMap (·.statements)
    s.groups[n]?.bind fun g =>
      (g.statements.findIdx? fun st => st.span.covers offset).map (before.length + ·)

/-- The statement at the offset. -/
def statementAt? (s : Script) (offset : Int) : Option Statement :=
  (s.groupAt? offset).bind fun g => g.statements.find? fun st => st.span.covers offset

end Script

end SqlScript
