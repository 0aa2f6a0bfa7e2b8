import SqlScript.Unicode.Blank
import SqlScript.Unicode.Lowercase
import SqlScript.Unicode.Uppercase

namespace SqlScript.Unicode

/-!
# Case and blank characters

Writing a text in another case keeps its blank characters, and makes nothing else blank.

* `KeepsBlanks` says so of a case mapping of characters;
* `keepsBlanks_mapCase` reduces it to a test of the tables of the mapping;
* `keepsBlanks_upperChar` and `keepsBlanks_lowerChar` are the two mappings.
-/

/-- Whether the range of code points from `first` to `last` has no blank character in it. -/
def avoidsBlanks (first last : Nat) : Bool :=
  (informationSeparators :: whiteSpaces).all fun r => last < r.1 || r.2 < first

/-- The blank characters are those that their runs cover. -/
theorem isBlank_iff {c : Char} :
    isBlank c = true ↔ ∃ r ∈ informationSeparators :: whiteSpaces, r.covers c.toNat = true := by
  simp [isBlank, isWhiteSpace, inRanges, or_comm]

/-- No character of a range that avoids the blank ones is blank. -/
theorem not_isBlank_of_avoidsBlanks {first last : Nat} {c : Char}
    (h : avoidsBlanks first last = true) (h1 : first ≤ c.toNat) (h2 : c.toNat ≤ last) :
    isBlank c = false := by
  cases hb : isBlank c with
  | false => rfl
  | true =>
    obtain ⟨r, hr, hc⟩ := isBlank_iff.mp hb
    have := List.all_eq_true.mp h r hr
    simp only [CodeRange.covers, Bool.and_eq_true, decide_eq_true_eq] at hc
    simp only [Bool.or_eq_true, decide_eq_true_eq] at this
    omega

/-- A code point that is no character is taken for the null character. -/
theorem toNat_ofNat_eq_or (n : Nat) : (Char.ofNat n).toNat = n ∨ (Char.ofNat n).toNat = 0 := by
  by_cases h : n.isValidChar
  · exact .inl (by rw [Char.ofNat, dif_pos h]; rfl)
  · exact .inr (by rw [Char.ofNat, dif_neg h]; rfl)

/-- A code point that is no character stands for the null character. -/
theorem ofNat_eq_or (n : Nat) : (Char.ofNat n).toNat = n ∨ Char.ofNat n = '\x00' :=
  (toNat_ofNat_eq_or n).imp_right fun h => Char.ext (UInt32.toNat_inj.mp h)

/-- No code point of a range that avoids the blank ones is blank, read as a character. -/
theorem not_isBlank_ofNat {first last n : Nat} (h : avoidsBlanks first last = true)
    (h1 : first ≤ n) (h2 : n ≤ last) : isBlank (Char.ofNat n) = false := by
  rcases toNat_ofNat_eq_or n with hn | hn
  · exact not_isBlank_of_avoidsBlanks h (by omega) (by omega)
  · have h0 : avoidsBlanks 0 0 = true := by decide
    exact not_isBlank_of_avoidsBlanks h0 (by omega) (by omega)

/-- A case mapping under which blank characters are themselves, and no other ones become blank or
    are lost. -/
def KeepsBlanks (f : Char → List Char) : Prop :=
  (∀ c, isBlank c = true → f c = [c]) ∧
    ∀ c, isBlank c = false → f c ≠ [] ∧ ∀ d ∈ f c, isBlank d = false

/-! ### Beyond ASCII -/

/-- Whether a run maps no blank character, and none to one. -/
def CaseRun.keepsBlanks (r : CaseRun) : Bool :=
  avoidsBlanks r.first r.last && avoidsBlanks r.target (r.target + (r.last - r.first))

/-- Whether an expansion maps no blank character, nothing to one, and nothing to no character. -/
def Expansion.keepsBlanks (e : Expansion) : Bool :=
  avoidsBlanks e.1 e.1 && !e.2.isEmpty && e.2.all fun n => avoidsBlanks n n

/-- A mapping keeps the blanks when its runs and its expansions do. -/
theorem keepsBlanks_mapCase {runs : List CaseRun} {expansions : List Expansion}
    (hr : runs.all CaseRun.keepsBlanks = true)
    (he : expansions.all Expansion.keepsBlanks = true) :
    KeepsBlanks (mapCase runs expansions) := by
  simp only [CaseRun.keepsBlanks, Expansion.keepsBlanks, Bool.and_eq_true, List.all_eq_true,
    Bool.not_eq_true'] at hr he
  constructor
  · intro c hc
    have hnot : ∀ {first last : Nat}, avoidsBlanks first last = true → first ≤ c.toNat →
        ¬c.toNat ≤ last := fun h h1 h2 => by
      rw [not_isBlank_of_avoidsBlanks h h1 h2] at hc
      exact absurd hc (by decide)
    -- Neither an expansion nor a run names a blank character.
    rcases mapCase_cases runs expansions c with ⟨e, hm, hcode, -⟩ | ⟨r, hm, m, hq, -⟩ | h
    · exact absurd (Nat.le_of_eq hcode.symm) (hnot (he e hm).1.1 (Nat.le_of_eq hcode))
    · obtain ⟨h1, h2, -⟩ := CaseRun.map?_eq_some hq
      exact absurd h2 (hnot (hr r hm).1 h1)
    · exact h
  · intro c hc
    rcases mapCase_cases runs expansions c with ⟨e, hm, -, h⟩ | ⟨r, hm, m, hq, h⟩ | h
    · rw [h]
      refine ⟨by simpa using (he e hm).1.2, fun d hd => ?_⟩
      obtain ⟨n, hn, rfl⟩ := List.mem_map.mp hd
      exact not_isBlank_ofNat ((he e hm).2 n hn) (Nat.le_refl n) (Nat.le_refl n)
    · obtain ⟨h1, h2, h3⟩ := CaseRun.map?_eq_some hq
      rw [h]
      refine ⟨by simp, fun d hd => ?_⟩
      rw [List.mem_singleton.mp hd]
      exact not_isBlank_ofNat (hr r hm).2 (by omega) (by omega)
    · rw [h]
      refine ⟨by simp, fun d hd => ?_⟩
      rwa [List.mem_singleton.mp hd]

/-! ### ASCII -/

/-- Whether the mapping keeps the blank characters of ASCII, and makes no others blank. -/
def keepsAsciiBlanks (g : Char → Char) : Bool :=
  (List.range (lastAscii + 1)).all fun n =>
    let c := Char.ofNat n
    if isBlank c then g c == c else !isBlank (g c)

/-- A mapping keeps the blanks when it does within ASCII and beyond it. -/
theorem keepsBlanks_ite {f : Char → List Char} {g : Char → Char} (hf : KeepsBlanks f)
    (hg : keepsAsciiBlanks g = true) :
    KeepsBlanks fun c => if beyondAscii c then f c else [g c] := by
  have ascii : ∀ c, ¬beyondAscii c = true →
      (if isBlank c then g c == c else !isBlank (g c)) = true := fun c hc =>
    forall_ascii (p := fun c => if isBlank c then g c == c else !isBlank (g c)) hg
      (Bool.not_eq_true _ ▸ hc)
  constructor
  · intro c hc
    simp only
    split
    · exact hf.1 c hc
    · have := ascii c ‹_›
      simp_all
  · intro c hc
    simp only
    split
    · exact hf.2 c hc
    · have := ascii c ‹_›
      simp_all

/-! ### The two mappings -/

/-- The upper case keeps the blanks. -/
theorem keepsBlanks_upperChar : KeepsBlanks upperChar :=
  keepsBlanks_ite (keepsBlanks_mapCase (by decide +kernel) (by decide +kernel))
    (by decide +kernel)

/-- The lower case keeps the blanks. -/
theorem keepsBlanks_lowerChar : KeepsBlanks lowerChar :=
  keepsBlanks_ite (keepsBlanks_mapCase (by decide +kernel) (by decide +kernel))
    (by decide +kernel)

end SqlScript.Unicode
