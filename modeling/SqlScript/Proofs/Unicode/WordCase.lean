import Mathlib.Tactic.Common
import SqlScript.Proofs.Unicode.Classes
import SqlScript.Proofs.Unicode.Settled

namespace SqlScript.Unicode

/-!
# The case of word characters

In another case a character of a word is characters of words, and no digits, apart from a few
characters whose upper or lower case has a mark in it that belongs to no word. This is a property of
the tables: what a run or an expansion gives lies among the characters of words.

* `KeepsWords` — whether a mapping of characters keeps words, apart from some characters;
* `CaseRun.keepsWords` and `Expansion.keepsWords` — the tests of the tables;
* `markedUpper` and `markedLower` — the characters with a mark in their upper and lower case;
* `keepsWords_upperChar` and `keepsWords_lowerChar` — the two mappings;
* `exists_mark_upperChar` and `exists_mark_lowerChar` — the marks.
-/

/-- Whether the character is one of words, and no digit. -/
def isLetter (c : Char) : Bool := isWordCharacter c && !isDecimalDigit c

/-- Whether the mapping gives for a character of words the character itself, or others that are no
    digits, unless the character is exempt. -/
def KeepsWords (f : Char → List Char) (exempt : List Nat) : Prop :=
  ∀ c, isWordCharacter c = true → c.toNat ∉ exempt → ∀ d ∈ f c, d = c ∨ isLetter d = true

/-! ### Tables -/

/-- Whether all code points from `first` to `last` are characters of words, and no digits. -/
def areLetters (first last : Nat) : Bool :=
  alphanumerics.any (fun r => Nat.ble last r.2 && Nat.ble r.1 first) &&
    decimalDigits.all (fun r => Nat.blt last r.1 || Nat.blt r.2 first) &&
    (Nat.blt last 0xD800 || Nat.blt 0xDFFF first && Nat.blt last 0x110000)

/-- Whether no code point from `first` to `last` is a character of words. -/
def avoidsWords (first last : Nat) : Bool :=
  alphanumerics.all fun r => Nat.blt last r.1 || Nat.blt r.2 first

/-- Whether what the run gives for characters of words are such, and no digits. Runs of every second
    character can have others between those that they give. -/
def CaseRun.keepsWords (r : CaseRun) : Bool :=
  if r.targetLast ≤ lastAscii then r.first == r.last && isLetter (Char.ofNat r.target)
  else lastAscii < r.target && areLetters r.target r.targetLast || avoidsWords r.first r.last ||
    lastAscii < r.target && (List.range (r.last - r.first + 1)).all fun k =>
      k % r.stride != 0 || areLetters (r.target + k) (r.target + k)

/-- Whether the expansion gives characters of words and no digits, or is one of an exempt
    character. -/
def Expansion.keepsWords (exempt : List Nat) (e : Expansion) : Bool :=
  exempt.contains e.1 || e.2.all fun n => isLetter (Char.ofNat n)

/-- The code points of a block of letters are characters. -/
theorem toNat_ofNat_of_areLetters {first last n : Nat} (h : areLetters first last = true)
    (h1 : first ≤ n) (h2 : n ≤ last) : (Char.ofNat n).toNat = n := by
  have hvalid : n.isValidChar := by
    simp only [areLetters, Bool.and_eq_true, Bool.or_eq_true, Nat.blt_eq] at h
    rcases h.2 with hlow | ⟨hhigh, hlast⟩
    · exact .inl (by omega)
    · exact .inr ⟨by omega, by omega⟩
  rw [Char.ofNat, dif_pos hvalid]
  rfl

/-- Letters and digits of ASCII are in ASCII. -/
theorem toNat_le_of_isAlphanum {c : Char} (hc : c.isAlphanum = true) : c.toNat ≤ lastAscii := by
  have hcode := toNat_of_isAlphanum hc
  rw [lastAscii]
  omega

/-- Beyond ASCII the characters of words are those of the table. -/
theorem isWordCharacter_eq_inRanges {c : Char} (h : beyondAscii c = true) :
    isWordCharacter c = inRanges alphanumerics c := by
  have hbeyond : lastAscii < c.toNat := by simpa [beyondAscii] using h
  have halpha : c.isAlphanum = false := by
    by_contra halpha
    have hle := toNat_le_of_isAlphanum (by simpa using halpha)
    omega
  have hunderscore : (c == '_') = false := by
    rw [beq_eq_false_iff_ne]
    rintro rfl
    exact absurd hbeyond (by decide)
  rw [isWordCharacter, halpha, hunderscore, h]
  simp

/-- Beyond ASCII the decimal digits are those of the table. -/
theorem isDecimalDigit_eq_inRanges {c : Char} (h : beyondAscii c = true) :
    isDecimalDigit c = inRanges decimalDigits c := by
  have hdigit : c.isDigit = false := by
    by_contra hdigit
    have hle := toNat_le_of_isAlphanum (c := c) (by simp [Char.isAlphanum, hdigit])
    have hbeyond : lastAscii < c.toNat := by simpa [beyondAscii] using h
    omega
  rw [isDecimalDigit, hdigit, h]
  simp

/-- What lies beyond ASCII between characters of words that are no digits is one of them. -/
theorem isLetter_of_areLetters {first last n : Nat} (h : areLetters first last = true)
    (hbeyond : lastAscii < first) (h1 : first ≤ n) (h2 : n ≤ last) :
    isLetter (Char.ofNat n) = true := by
  have hcode := toNat_ofNat_of_areLetters h h1 h2
  have hbeyond' : beyondAscii (Char.ofNat n) = true := by
    simp only [beyondAscii, hcode, decide_eq_true_eq]
    omega
  simp only [areLetters, Bool.and_eq_true, List.any_eq_true, List.all_eq_true, Bool.or_eq_true,
    Nat.ble_eq, Nat.blt_eq] at h
  obtain ⟨⟨⟨r, hr, hlast, hfirst⟩, hdigits⟩, -⟩ := h
  have hword : inRanges alphanumerics (Char.ofNat n) = true :=
    inRanges_iff.mpr ⟨r, hr, by omega, by omega⟩
  have hdigit : inRanges decimalDigits (Char.ofNat n) = false := by
    by_contra hin
    obtain ⟨q, hq, hq1, hq2⟩ := inRanges_iff.mp (by simpa using hin)
    have := hdigits q hq
    omega
  rw [isLetter, isWordCharacter_eq_inRanges hbeyond', isDecimalDigit_eq_inRanges hbeyond', hword,
    hdigit]
  rfl

/-- What a run gives for a character of words is one, and no digit. -/
theorem CaseRun.isLetter_of_map? {r : CaseRun} (hr : r.keepsWords = true) {c : Char}
    (hc : inRanges alphanumerics c = true) {m : Nat} (hm : r.map? c.toNat = some m) :
    isLetter (Char.ofNat m) = true := by
  obtain ⟨h1, h2, rfl⟩ := map?_eq_some hm
  unfold keepsWords at hr
  split at hr
  · simp only [Bool.and_eq_true, beq_iff_eq] at hr
    rw [show r.target + (c.toNat - r.first) = r.target by omega]
    exact hr.2
  · simp only [Bool.or_eq_true, Bool.and_eq_true, decide_eq_true_eq] at hr
    rcases hr with (⟨hbeyond, hletters⟩ | havoids) | ⟨hbeyond, hsteps⟩
    · exact isLetter_of_areLetters hletters hbeyond (by omega) (by rw [targetLast]; omega)
    · -- The run is one of characters that belong to no word.
      obtain ⟨q, hq, hq1, hq2⟩ := inRanges_iff.mp hc
      have := List.all_eq_true.mp havoids q hq
      simp only [Bool.or_eq_true, Nat.blt_eq] at this
      omega
    · have hstride : (c.toNat - r.first) % r.stride = 0 := by
        unfold map? at hm
        split at hm
        · rename_i hin
          exact hin.2.2
        · contradiction
      have hstep := List.all_eq_true.mp hsteps (c.toNat - r.first)
        (List.mem_range.mpr (by omega))
      rw [hstride] at hstep
      exact isLetter_of_areLetters (by simpa using hstep) (by omega) (Nat.le_refl _)
        (Nat.le_refl _)

/-- A mapping keeps words beyond ASCII when its runs and its expansions do. -/
theorem keepsWords_mapCase {runs : List CaseRun} {expansions : List Expansion} {exempt : List Nat}
    (hr : runs.all CaseRun.keepsWords = true)
    (he : expansions.all (Expansion.keepsWords exempt) = true) {c : Char}
    (hc : inRanges alphanumerics c = true) (hno : c.toNat ∉ exempt) :
    ∀ d ∈ mapCase runs expansions c, d = c ∨ isLetter d = true := by
  intro d hd
  rcases mapCase_cases runs expansions c with ⟨e, hmem, hcode, h⟩ | ⟨r, hmem, m, hm, h⟩ | h
  · rw [h] at hd
    have hkeeps := List.all_eq_true.mp he e hmem
    rw [Expansion.keepsWords, hcode, Bool.or_eq_true, List.contains_iff_mem] at hkeeps
    obtain ⟨n, hn, rfl⟩ := List.mem_map.mp hd
    exact .inr (List.all_eq_true.mp (hkeeps.resolve_left hno) n hn)
  · rw [h] at hd
    rw [List.mem_singleton.mp hd]
    exact .inr (CaseRun.isLetter_of_map? (List.all_eq_true.mp hr r hmem) hc hm)
  · rw [h] at hd
    exact .inl (List.mem_singleton.mp hd)

/-- A mapping keeps words when it does within ASCII and beyond it. -/
theorem keepsWords_ite {f : Char → List Char} {g : Char → Char} {exempt : List Nat}
    (hf : ∀ c, inRanges alphanumerics c = true → c.toNat ∉ exempt →
      ∀ d ∈ f c, d = c ∨ isLetter d = true)
    (hg : (List.range (lastAscii + 1)).all (fun n =>
      g (Char.ofNat n) == Char.ofNat n || isLetter (g (Char.ofNat n))) = true) :
    KeepsWords (fun c => if beyondAscii c then f c else [g c]) exempt := by
  intro c hc hno d hd
  change d ∈ (if beyondAscii c then f c else [g c]) at hd
  cases hbeyond : beyondAscii c with
  | true =>
    rw [hbeyond, if_pos rfl] at hd
    exact hf c (isWordCharacter_eq_inRanges hbeyond ▸ hc) hno d hd
  | false =>
    rw [hbeyond, if_neg (by decide)] at hd
    have hall := forall_ascii (p := fun c => g c == c || isLetter (g c)) hg hbeyond
    rw [Bool.or_eq_true, beq_iff_eq] at hall
    rw [List.mem_singleton.mp hd]
    exact hall

/-! ### The two mappings -/

/-- The characters of words with a mark in their upper case. -/
def markedUpper : List Nat :=
  [0x1F0, 0x390, 0x3B0, 0x1E96, 0x1E97, 0x1E98, 0x1E99, 0x1F50, 0x1F52, 0x1F54, 0x1F56, 0x1FB6,
   0x1FB7, 0x1FC6, 0x1FC7, 0x1FD2, 0x1FD3, 0x1FD6, 0x1FD7, 0x1FE2, 0x1FE3, 0x1FE4, 0x1FE6, 0x1FE7,
   0x1FF6, 0x1FF7]

/-- The character of words with a mark in its lower case: the dotted capital i. -/
def markedLower : List Nat := [0x130]

/-- The upper case of a character of words is of words, the marked characters apart. -/
theorem keepsWords_upperChar : KeepsWords upperChar markedUpper :=
  keepsWords_ite (fun _ => keepsWords_mapCase (by decide +kernel) (by decide +kernel))
    (by decide +kernel)

/-- The lower case of a character of words is of words, the dotted capital i apart. -/
theorem keepsWords_lowerChar : KeepsWords lowerChar markedLower :=
  keepsWords_ite (fun _ => keepsWords_mapCase (by decide +kernel) (by decide +kernel))
    (by decide +kernel)

/-- What belongs to no word in the upper or lower case of a marked character. -/
theorem exists_mark {f : Char → List Char} {marked : List Nat}
    (h : marked.all (fun n => (f (Char.ofNat n)).any fun d => !continuesWord d) = true) {c : Char}
    (hc : c.toNat ∈ marked) : ∃ d ∈ f c, continuesWord d = false := by
  have hmark := List.all_eq_true.mp h c.toNat hc
  rw [Char.ofNat_toNat] at hmark
  simpa using hmark

/-- The upper case of a marked character has a character that is not of words. -/
theorem exists_mark_upperChar {c : Char} (hc : c.toNat ∈ markedUpper) :
    ∃ d ∈ upperChar c, continuesWord d = false :=
  exists_mark (by decide +kernel) hc

/-- The lower case of the dotted capital i has a character that is not of words. -/
theorem exists_mark_lowerChar {c : Char} (hc : c.toNat ∈ markedLower) :
    ∃ d ∈ lowerChar c, continuesWord d = false :=
  exists_mark (by decide +kernel) hc

end SqlScript.Unicode
