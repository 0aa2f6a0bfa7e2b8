namespace SqlScript.Unicode

/-!
# Ranges of code points

The properties of characters used in this library are tables of closed ranges of code
points, in ascending order.

* `inRanges` looks a character up in such a table;
* `inRanges_iff` says that being found is lying in one of the ranges.
-/

/-- A closed range of code points, its first and its last one. -/
abbrev CodeRange := Nat × Nat

/-- Whether the range covers the code point. -/
def CodeRange.covers (r : CodeRange) (n : Nat) : Bool := r.1 ≤ n && n ≤ r.2

/-- Whether the character lies in one of the ranges. -/
def inRanges (ranges : List CodeRange) (c : Char) : Bool :=
  ranges.any fun r => r.covers c.toNat

/-- A character is in some ranges when its code point is in one of them. -/
theorem inRanges_iff {ranges : List CodeRange} {c : Char} :
    inRanges ranges c = true ↔ ∃ r ∈ ranges, r.1 ≤ c.toNat ∧ c.toNat ≤ r.2 := by
  simp [inRanges, CodeRange.covers]

/-- The last code point of the ASCII block, where most properties have a closed form. -/
def lastAscii : Nat := 0x7F

/-- Whether the character lies beyond the ASCII block. -/
def beyondAscii (c : Char) : Bool := lastAscii < c.toNat

/-- What holds of every code point of the ASCII block holds of every character in it. -/
theorem forall_ascii {p : Char → Bool}
    (h : (List.range (lastAscii + 1)).all (fun n => p (Char.ofNat n)) = true) {c : Char}
    (hc : beyondAscii c = false) : p c = true := by
  have hn : c.toNat < lastAscii + 1 := by
    simp only [beyondAscii, decide_eq_false_iff_not] at hc
    omega
  rw [← Char.ofNat_toNat c]
  exact List.all_eq_true.mp h c.toNat (List.mem_range.mpr hn)

end SqlScript.Unicode
