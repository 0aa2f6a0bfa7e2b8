import SqlScript.Proofs.Token.Boundary

namespace SqlScript

open Unicode

/-!
# Words of the language

The words that decide how a script is read are written with capitals of ASCII. Whatever spells one
of them in some case is a word, and its kind is the one that its spelling asks for.

* `startsWord_of_upperChar` — only what starts a word has a capital of ASCII as its upper case;
* `Token.IsRead` — whether a token is what is read of some text;
* `Token.IsRead.kind_eq_of_isBareWord` — the kind of a word that was read follows from its text;
* `Token.IsRead.isBareWord_of_spells` — what spells a word of the language is a word.
-/

/-! ### Capitals -/

/-- Whether the code point is a capital of ASCII. -/
def isCapitalCode (n : Nat) : Bool := 0x41 ≤ n && n ≤ 0x5A

/-- Whether the character is a capital of ASCII. -/
def isCapital (c : Char) : Bool := isCapitalCode c.toNat

/-- Whether the word is written with capitals of ASCII. -/
def isReserved (w : String) : Bool := !w.toList.isEmpty && w.toList.all isCapital

/-- The characters beyond ASCII whose upper case is in capitals of ASCII: the sharp s, the dotless i,
    the long s and ligatures. -/
def capitalSources : List Nat :=
  [0xDF, 0x131, 0x17F, 0xFB00, 0xFB01, 0xFB02, 0xFB03, 0xFB04, 0xFB05, 0xFB06]

/-- Whether the code point is one of a character whose upper case can be in capitals of ASCII. -/
def isCapitalSource (n : Nat) : Bool := n ≤ lastAscii || capitalSources.contains n

/-- What expands to capitals of ASCII is one of the listed characters. -/
private theorem isCapitalSource_of_expansion {e : Expansion} (he : e ∈ upperExpansions)
    (h : ∀ d ∈ e.2.map Char.ofNat, isCapital d = true) : isCapitalSource e.1 = true := by
  have hall : upperExpansions.all (fun e =>
      !(e.2.map Char.ofNat).all isCapital || isCapitalSource e.1) = true := by decide +kernel
  have := List.all_eq_true.mp hall e he
  rw [List.all_eq_true.mpr h] at this
  simpa using this

/-- What a run maps to a capital of ASCII is one of the listed characters. -/
private theorem isCapitalSource_of_run {r : CaseRun} (hr : r ∈ upperRuns) {n m : Nat}
    (hm : r.map? n = some m) (h : isCapitalCode m = true) : isCapitalSource n = true := by
  have hall : upperRuns.all (fun r =>
      0x5A < r.target || r.first == r.last && isCapitalSource r.first) = true := by decide +kernel
  have := List.all_eq_true.mp hall r hr
  obtain ⟨h1, h2, h3⟩ := CaseRun.map?_eq_some hm
  simp only [isCapitalCode, Bool.and_eq_true, decide_eq_true_eq] at h
  simp only [Bool.or_eq_true, Bool.and_eq_true, decide_eq_true_eq, beq_iff_eq] at this
  rcases this with hlt | ⟨heq, hs⟩
  · omega
  · obtain rfl : n = r.first := by omega
    exact hs

/-- Only few characters have capitals of ASCII as their upper case. -/
theorem isCapitalSource_of_upperChar {c : Char} (h : ∀ d ∈ upperChar c, isCapital d = true) :
    isCapitalSource c.toNat = true := by
  unfold upperChar at h
  split at h
  · rename_i hbeyond
    rcases mapCase_cases upperRuns upperExpansions c with ⟨e, he, hcode, hc⟩ | ⟨r, hr, m, hm, hc⟩ | hc
    · rw [hc] at h
      rw [← hcode]
      exact isCapitalSource_of_expansion he h
    · rw [hc] at h
      have hcapital : isCapital (Char.ofNat m) = true := h _ (by simp)
      rcases ofNat_eq_or m with hn | hzero
      · rw [isCapital, hn] at hcapital
        exact isCapitalSource_of_run hr hm hcapital
      · rw [hzero] at hcapital
        exact absurd hcapital (by decide)
    · -- A character beyond ASCII that is its own upper case is no capital of ASCII.
      have hcapital : isCapital c = true := h c (by simp [hc])
      simp only [isCapital, isCapitalCode, Bool.and_eq_true, decide_eq_true_eq] at hcapital
      have hcode : lastAscii < c.toNat := by simpa [beyondAscii] using hbeyond
      rw [lastAscii] at hcode
      omega
  · rename_i hascii
    have hcode : c.toNat ≤ lastAscii := by simpa [beyondAscii] using hascii
    simp [isCapitalSource, hcode]

/-- What holds of ASCII and of the few other characters holds of all characters whose upper case is
    in capitals of ASCII. -/
theorem forall_isCapitalSource {p : Char → Bool}
    (hascii : (List.range (lastAscii + 1)).all (fun n => p (Char.ofNat n)) = true)
    (hothers : capitalSources.all (fun n => p (Char.ofNat n)) = true) {c : Char}
    (h : isCapitalSource c.toNat = true) : p c = true := by
  rw [← Char.ofNat_toNat c]
  simp only [isCapitalSource, Bool.or_eq_true, decide_eq_true_eq] at h
  rcases h with hle | hmem
  · exact List.all_eq_true.mp hascii _ (List.mem_range.mpr (by omega))
  · exact List.all_eq_true.mp hothers _ (List.contains_iff_mem.mp hmem)

/-- Only what starts a word has capitals of ASCII as its upper case. -/
theorem startsWord_of_upperChar {c : Char} (h : ∀ d ∈ upperChar c, isCapital d = true) :
    startsWord c = true := by
  have hsource := isCapitalSource_of_upperChar h
  have := forall_isCapitalSource (p := fun c => !(upperChar c).all isCapital || startsWord c)
    (by decide +kernel) (by decide +kernel) hsource
  simpa [List.all_eq_true.mpr h] using this

/-! ### Words -/

/-- A lexeme in capitals of ASCII, whatever the case that it is written in, is a word. -/
theorem Lexeme.Form.kind_eq_of_upper {x : Lexeme} {rest : Text} (h : x.Form rest)
    (hcapital : ∀ d ∈ upper x.text, isCapital d = true) :
    x.kind = LexicalRule.wordKind x.text := by
  have hmem : ∀ c ∈ x.text, startsWord c = true := fun c hc =>
    startsWord_of_upperChar fun d hd => hcapital d (List.mem_flatMap.mpr ⟨c, hc, hd⟩)
  -- Every other form has a character that no word starts with.
  cases h with
  | lineComment => exact absurd (hmem '-' (by simp)) (by decide)
  | markedComment => exact absurd (hmem '/' (by simp)) (by decide)
  | string => exact absurd (hmem '\'' (by simp)) (by decide)
  | prefixedString => exact absurd (hmem '\'' (by simp)) (by decide)
  | delimited => exact absurd (hmem '"' (by simp)) (by decide)
  | number hne hw =>
    rename_i w
    obtain ⟨c, v, rfl⟩ := List.exists_cons_of_ne_nil hne
    have hc := hmem c (by simp)
    have hzero := numberReach_eq_zero (not_isDecimalDigit_of_startsWord hc)
      (ne_of_apply_eq_true hc (by decide)) (v ++ rest)
    rw [List.cons_append, hzero, List.length_cons] at hw
    omega
  | word => rfl
  | longOperator hw =>
    have hall : longOperators.all (fun o => o.any fun c => !startsWord c) = true := by decide
    have := List.all_eq_true.mp hall _ hw
    rw [List.any_eq_true] at this
    obtain ⟨c, hc, hs⟩ := this
    simp [hmem c hc] at hs
  | @operator c rest hc =>
    have := apply_eq_false_of_mem (p := startsWord) (l := "-+*/%<>!|&^~?".toList) hc (by decide)
    simp [hmem c (by simp)] at this
  | @punctuation c k rest hk =>
    rw [punctuationKind?_eq_some_iff] at hk
    have hc := hmem c (by simp)
    cases k <;> simp only [Kind.mark?, Option.some.injEq, reduceCtorEq] at hk <;> subst hk <;>
      exact absurd hc (by decide)
  | @unknown c rest hc =>
    simp only [isStray, Bool.and_eq_true, Bool.not_eq_true'] at hc
    have := hmem c (by simp)
    simp [hc.1.1.1.1.1.2] at this

/-- The kind of a word follows from its text. -/
theorem Lexeme.Form.kind_eq_of_isBareWord {x : Lexeme} {rest : Text} (h : x.Form rest)
    (hk : x.kind.isBareWord = true) : x.kind = LexicalRule.wordKind x.text := by
  cases h with
  | word => rfl
  | @punctuation c k rest hp =>
    rw [punctuationKind?_eq_some_iff] at hp
    cases k <;> simp_all [Kind.isBareWord, Kind.mark?]
  | _ => simp [Kind.isBareWord] at hk

/-- A word is of a kind of bare words. -/
theorem isBareWord_wordKind (t : Text) : (LexicalRule.wordKind t).isBareWord = true := by
  unfold LexicalRule.wordKind
  simp only
  split
  · rfl
  · split <;> rfl

namespace Token

/-- Whether the token is what is read first of some text. -/
def IsRead (t : Token) : Prop := ∃ rest, t.lexeme.ReadBefore rest

/-- The tokens of a text are read of it. -/
theorem isRead_of_mem_scan {u : Text} {t : Token} (h : t ∈ scan u) : t.IsRead := by
  obtain ⟨before, after, hsplit⟩ := List.append_of_mem h
  obtain ⟨rest, -, -, hread, -⟩ := Text.scan_split hsplit
  exact ⟨rest, hread⟩

namespace IsRead

variable {t : Token}

/-- The kind of a word that was read follows from its text. -/
theorem kind_eq_of_isBareWord (h : t.IsRead) (hk : t.kind.isBareWord = true) :
    t.kind = LexicalRule.wordKind t.text := by
  obtain ⟨rest, hread⟩ := h
  exact hread.form.kind_eq_of_isBareWord hk

/-- What spells a word of the language has the kind of that word. -/
theorem kind_eq_of_spells (h : t.IsRead) {w : String} (hw : isReserved w = true)
    (hs : t.spells w = true) : t.kind = LexicalRule.wordKind t.text := by
  obtain ⟨rest, hread⟩ := h
  refine hread.form.kind_eq_of_upper fun d hd => ?_
  have hkey : upper t.text = w.toList := by simpa [spells, key] using hs
  rw [isReserved, Bool.and_eq_true] at hw
  refine List.all_eq_true.mp hw.2 d ?_
  rw [← hkey]
  exact hd

/-- What spells a word of the language is a word. -/
theorem isBareWord_of_spells (h : t.IsRead) {w : String} (hw : isReserved w = true)
    (hs : t.spells w = true) : t.kind.isBareWord = true := by
  rw [h.kind_eq_of_spells hw hs]
  exact isBareWord_wordKind _

/-- A word that is neither a verb nor introduces a clause spells none of these. -/
theorem ofKey?_eq_none (h : t.IsRead) (hk : t.kind = .word) : Verb.ofKey? t.key = none := by
  have hkind := h.kind_eq_of_isBareWord (by rw [hk]; rfl)
  change _ = if (Verb.ofKey? t.key).isSome then Kind.verb
    else if isClauseKey t.key then .clause else .word at hkind
  rw [hk] at hkind
  split at hkind
  · exact absurd hkind (by decide)
  · rename_i hverb
    exact Option.not_isSome_iff_eq_none.mp hverb

end IsRead

end Token

/-! ### Spelled words -/

/-- A token spells no more than one word. -/
theorem Token.spells_eq_false {t : Token} {w : String} (h : t.spells w = true) (v : String)
    (hne : w ≠ v) : t.spells v = false := by
  simp only [Token.spells, beq_iff_eq] at h
  simp only [Token.spells, beq_eq_false_iff_ne, h]
  exact fun heq => hne (String.toList_inj.mp heq)

/-- A token that spells a word has it for its key. -/
theorem Token.key_of_spells {t : Token} {w : String} (h : t.spells w = true) : t.key = w.toList := by
  simpa [Token.spells] using h

/-- What spells a verb is one. -/
theorem Token.IsRead.kind_ne_word {t : Token} (h : t.IsRead) {w : String} {v : Verb}
    (hs : t.spells w = true) (hv : Verb.ofKey? w.toList = some v) : t.kind ≠ .word := by
  intro hk
  have hnone := h.ofKey?_eq_none hk
  rw [Token.key_of_spells hs, hv] at hnone
  exact absurd hnone (by simp)

/-- A word that is no verb spells none. -/
theorem Token.IsRead.spells_eq_false_of_word {t : Token} (h : t.IsRead) (hk : t.kind = .word)
    {w : String} (hw : (Verb.ofKey? w.toList).isSome = true) : t.spells w = false := by
  obtain ⟨v, hv⟩ := Option.isSome_iff_exists.mp hw
  by_contra hs
  rw [Bool.not_eq_false] at hs
  exact h.kind_ne_word hs hv hk

/-- What is no word spells none. -/
theorem Token.IsRead.spells_eq_false_of_kind {t : Token} (h : t.IsRead)
    (hk : t.kind.isBareWord = false) {w : String} (hw : isReserved w = true) :
    t.spells w = false := by
  by_contra hs
  rw [Bool.not_eq_false] at hs
  rw [h.isBareWord_of_spells hw hs] at hk
  exact absurd hk (by decide)

/-- A bare word is no comment. -/
theorem Token.not_isComment_of_isBareWord {t : Token} (h : t.kind.isBareWord = true) :
    t.isComment = false := by
  rw [Token.isComment, beq_eq_false_iff_ne]
  intro hk
  rw [hk] at h
  exact absurd h (by decide)

end SqlScript
