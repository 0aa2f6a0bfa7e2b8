import SqlScript.Unicode.Range

namespace SqlScript.Unicode

/-!
# Case mappings

A case mapping sends most characters to one other character, at a fixed distance within a run,
and a few to several characters.

* `CaseRun.map?` is the mapping of one run;
* `mapCase` is the mapping of a character, itself when no run and no expansion names it;
  `mapCase_cases` are its cases.
-/

/-- A run of characters that are mapped alike: every `stride`-th one from `first` to `last`
    goes to the character as far from `target` as it is from `first`. -/
structure CaseRun where
  first : Nat
  last : Nat
  stride : Nat
  target : Nat

/-- The code point that the run sends `n` to, when `n` belongs to the run. -/
def CaseRun.map? (run : CaseRun) (n : Nat) : Option Nat :=
  if run.first ≤ n ∧ n ≤ run.last ∧ (n - run.first) % run.stride = 0 then
    some (run.target + (n - run.first))
  else none

/-- A character that is mapped to several ones. -/
abbrev Expansion := Nat × List Nat

/-- The mapping of a character beyond ASCII, from its runs and its expansions. -/
def mapCase (runs : List CaseRun) (expansions : List Expansion) (c : Char) : List Char :=
  match expansions.find? fun e => e.1 == c.toNat with
  | some e => e.2.map Char.ofNat
  | none =>
    match runs.findSome? fun run => run.map? c.toNat with
    | some n => [Char.ofNat n]
    | none => [c]

/-- What a run maps is in it, and as far from its target as it is from its first code point. -/
theorem CaseRun.map?_eq_some {r : CaseRun} {n m : Nat} (h : r.map? n = some m) :
    r.first ≤ n ∧ n ≤ r.last ∧ m = r.target + (n - r.first) := by
  unfold CaseRun.map? at h
  split at h
  · simp_all
  · simp at h

/-- A character is expanded, mapped in a run, or left as it is. -/
theorem mapCase_cases (runs : List CaseRun) (expansions : List Expansion) (c : Char) :
    (∃ e ∈ expansions, e.1 = c.toNat ∧ mapCase runs expansions c = e.2.map Char.ofNat) ∨
      (∃ r ∈ runs, ∃ m, r.map? c.toNat = some m ∧ mapCase runs expansions c = [Char.ofNat m]) ∨
      mapCase runs expansions c = [c] := by
  unfold mapCase
  split
  · rename_i e he
    exact .inl ⟨e, List.mem_of_find?_eq_some he, by simpa using List.find?_some he, rfl⟩
  · split
    · rename_i m hm
      obtain ⟨r, hr, hrm⟩ := List.exists_of_findSome?_eq_some hm
      exact .inr (.inl ⟨r, hr, m, hrm, rfl⟩)
    · exact .inr (.inr rfl)

end SqlScript.Unicode
