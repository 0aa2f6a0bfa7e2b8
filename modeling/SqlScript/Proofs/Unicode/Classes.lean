import SqlScript.Token.Extent
import SqlScript.Unicode.CaseBlank

namespace SqlScript

open Unicode

/-!
# Classes of characters

The classes by which a text is divided into tokens have no character in common where it matters.

* `not_isBlank_of_isWordCharacter` and `not_isBlank_of_isDecimalDigit` — what belongs to a word or
  to a number is not blank;
* `not_isDecimalDigit_of_startsWord` — a word starts with no digit;
* `isBoundary` holds of the characters that end the token in front of them, and
  `apply_eq_false_of_isBoundary` says what such a character is not.
-/

/-! ### Blank characters -/

/-- A character of a table of ranges without blanks is not blank. -/
theorem not_isBlank_of_inRanges {ranges : List CodeRange}
    (h : ranges.all (fun r => avoidsBlanks r.1 r.2) = true) {c : Char}
    (hc : inRanges ranges c = true) : isBlank c = false := by
  obtain ⟨r, hr, h1, h2⟩ := inRanges_iff.mp hc
  exact not_isBlank_of_avoidsBlanks (List.all_eq_true.mp h r hr) h1 h2

/-- The code points of ASCII letters and digits. -/
theorem toNat_of_isAlphanum {c : Char} (hc : c.isAlphanum = true) :
    ((65 ≤ c.toNat ∧ c.toNat ≤ 90) ∨ (97 ≤ c.toNat ∧ c.toNat ≤ 122)) ∨
      (48 ≤ c.toNat ∧ c.toNat ≤ 57) := by
  change ((decide (c.val ≥ 65 ∧ c.val ≤ 90) || (decide (c.val ≥ 97) && decide (c.val ≤ 122))) ||
    (decide (c.val ≥ 48) && decide (c.val ≤ 57))) = true at hc
  simp only [Bool.or_eq_true, Bool.and_eq_true, decide_eq_true_eq, ge_iff_le,
    UInt32.le_iff_toNat_le] at hc
  exact hc

/-- ASCII letters, digits and the underscore are not blank. -/
theorem not_isBlank_of_ascii {c : Char} (hc : c.isAlphanum = true ∨ c = '_') :
    isBlank c = false := by
  have hr : inRanges [(0x30, 0x39), (0x41, 0x5A), (0x5F, 0x5F), (0x61, 0x7A)] c = true := by
    rw [inRanges_iff]
    rcases hc with hc | rfl
    · have hcode := toNat_of_isAlphanum hc
      simp only [List.mem_cons, List.not_mem_nil, or_false, exists_eq_or_imp, exists_eq_left]
      omega
    · exact ⟨(0x5F, 0x5F), by simp, by decide⟩
  exact not_isBlank_of_inRanges (by decide) hr

/-- What can be part of a word is not blank. -/
theorem not_isBlank_of_isWordCharacter {c : Char} (hc : isWordCharacter c = true) :
    isBlank c = false := by
  simp only [isWordCharacter, Bool.or_eq_true, Bool.and_eq_true, beq_iff_eq] at hc
  rcases hc with hc | ⟨-, hc⟩
  · exact not_isBlank_of_ascii hc
  · exact not_isBlank_of_inRanges (by decide +kernel) hc

/-- A decimal digit is not blank. -/
theorem not_isBlank_of_isDecimalDigit {c : Char} (hc : isDecimalDigit c = true) :
    isBlank c = false := by
  simp only [isDecimalDigit, Bool.or_eq_true, Bool.and_eq_true] at hc
  rcases hc with hc | ⟨-, hc⟩
  · exact not_isBlank_of_ascii (.inl (by simp [Char.isAlphanum, hc]))
  · exact not_isBlank_of_inRanges (by decide +kernel) hc

/-- A character of words is not blank. -/
theorem not_isBlank_of_continuesWord {c : Char} (hc : continuesWord c = true) :
    isBlank c = false := by
  simp only [continuesWord, isNationalCharacter, Bool.or_eq_true, beq_iff_eq] at hc
  rcases hc with hc | (rfl | rfl) | rfl
  · exact not_isBlank_of_isWordCharacter hc
  all_goals decide

/-! ### Words and digits -/

/-- What can start a word can go on with it. -/
theorem continuesWord_of_startsWord {c : Char} (hc : startsWord c = true) :
    continuesWord c = true := by
  simp only [startsWord, continuesWord, Bool.or_eq_true, Bool.and_eq_true] at hc ⊢
  exact hc.imp_left And.left

/-- A word starts with no digit. -/
theorem not_isDecimalDigit_of_startsWord {c : Char} (hc : startsWord c = true) :
    isDecimalDigit c = false := by
  simp only [startsWord, isNationalCharacter, Bool.or_eq_true, Bool.and_eq_true, Bool.not_eq_true',
    beq_iff_eq] at hc
  rcases hc with ⟨-, hc⟩ | (rfl | rfl) | rfl
  · exact hc
  all_goals decide

/-- A character that satisfies a test is none of those that do not. -/
theorem ne_of_apply_eq_true {p : Char → Bool} {c d : Char} (hc : p c = true)
    (hd : p d = false) : c ≠ d := by
  rintro rfl
  rw [hc] at hd
  exact absurd hd (by decide)

/-! ### Boundaries -/

/-- The punctuation that is written right after any token. -/
def isJoinedMark (c : Char) : Bool := "(),;.:".toList.contains c

/-- Whether the character ends the token in front of it. Of these, a dot is part of a number whose
    digits it follows, and a colon of an operator whose colon it follows. -/
def isBoundary (c : Char) : Bool := isBlank c || isJoinedMark c

/-- A boundary satisfies no test that fails for blanks and for joined marks. -/
theorem apply_eq_false_of_isBoundary {p : Char → Bool} {c : Char} (hc : isBoundary c = true)
    (hp : ∀ d, p d = true → isBlank d = false)
    (hm : "(),;.:".toList.all (fun d => !p d) = true) : p c = false := by
  rw [isBoundary, Bool.or_eq_true] at hc
  rcases hc with hc | hc
  · cases h : p c with
    | false => rfl
    | true => rw [hp c h] at hc; exact absurd hc (by decide)
  · have := List.all_eq_true.mp hm c (by simpa [isJoinedMark] using hc)
    simpa using this

/-- A boundary is no part of words. -/
theorem not_continuesWord_of_isBoundary {c : Char} (hc : isBoundary c = true) :
    continuesWord c = false :=
  apply_eq_false_of_isBoundary hc (fun _ => not_isBlank_of_continuesWord) (by decide)

/-- A boundary is no digit. -/
theorem not_isDecimalDigit_of_isBoundary {c : Char} (hc : isBoundary c = true) :
    isDecimalDigit c = false :=
  apply_eq_false_of_isBoundary hc (fun _ => not_isBlank_of_isDecimalDigit) (by decide)

end SqlScript
