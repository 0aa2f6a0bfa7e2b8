import SqlScript.Layout.Style
import SqlScript.Proofs.Text.LineBreak
import SqlScript.Proofs.Token.Word
import SqlScript.Proofs.Unicode.Settled

namespace SqlScript

open Unicode

/-!
# Words in another case

A word of the language spells the same in another case, as long as it is a word of the same kind
there. There are characters which are no capitals of ASCII in upper case, but have a lower case
whose upper case is one, so that a name in lower case can turn out to be a word of the language.

* `upper_lowerFrom` — what spells a word in capitals of ASCII spells it in lower case too;
* `upper_of_lowerFrom` — what spells a word in lower case spells it as it is, unless the word has one
  of the letters in it that such characters stand for;
* `isGuide` — the words by which a script is read;
* `Token.spells_eq_of_apply` — a token in another case spells the same of these words.
-/

/-! ### Lower case and back -/

/-- A character whose upper case is in capitals of ASCII has it in lower case too. -/
theorem upper_lowerChar {c : Char} (h : ∀ d ∈ upperChar c, isCapital d = true) :
    upper (lowerChar c) = upperChar c := by
  have hsource := isCapitalSource_of_upperChar h
  have := forall_isCapitalSource (p := fun c => upper (lowerChar c) == upperChar c)
    (by decide +kernel) (by decide +kernel) hsource
  simpa using this

/-- What spells a word in capitals of ASCII spells it in lower case too. -/
theorem upper_lowerFrom {t : Text} (h : ∀ d ∈ upper t, isCapital d = true) (inWord : Bool) :
    upper (lowerFrom inWord t) = upper t := by
  induction t generalizing inWord with
  | nil => rfl
  | cons c t ih =>
    rw [upper_cons] at h
    have hc : ∀ d ∈ upperChar c, isCapital d = true := fun d hd => h d (by simp [hd])
    have hsigma : c ≠ 'Σ' := by
      rintro rfl
      exact absurd (hc 'Σ' (by decide +kernel)) (by decide)
    rw [lowerFrom, if_neg hsigma, upper_append, upper_cons, upper_lowerChar hc,
      ih (fun d hd => h d (by simp [hd]))]

/-- The characters beyond ASCII whose lower case has an upper case in capitals of ASCII which is not
    theirs: the capital sharp s, and the sign of the unit kelvin. -/
def strangers : List Nat := [0x1E9E, 0x212A]

/-- A run that maps to a source of capitals maps a stranger to it. -/
private theorem mem_strangers_of_run {r : CaseRun} (hr : r ∈ lowerRuns) {n m : Nat}
    (hm : r.map? n = some m) (h : isCapitalSource m = true) : n ∈ strangers := by
  have hall : lowerRuns.all (fun r => r.first == r.last && strangers.contains r.first ||
      lastAscii < r.target && capitalSources.all fun n => n < r.target || r.targetLast < n)
      = true := by decide +kernel
  have := List.all_eq_true.mp hall r hr
  obtain ⟨h1, h2, h3⟩ := CaseRun.map?_eq_some hm
  simp only [Bool.or_eq_true, Bool.and_eq_true, decide_eq_true_eq, beq_iff_eq,
    List.all_eq_true, List.contains_iff_mem] at this
  rcases this with ⟨heq, hs⟩ | ⟨hascii, hothers⟩
  · obtain rfl : n = r.first := by omega
    exact hs
  · simp only [isCapitalSource, Bool.or_eq_true, decide_eq_true_eq, List.contains_iff_mem] at h
    rcases h with h | h
    · omega
    · have := hothers m h
      rw [CaseRun.targetLast] at this
      omega

/-- Beyond ASCII a lower case with capitals for its upper case has that of the character itself,
    strangers apart. -/
private theorem upperChar_of_mapCase {c : Char}
    (h : ∀ d ∈ upper (mapCase lowerRuns lowerExpansions c), isCapital d = true) :
    upperChar c = upper (mapCase lowerRuns lowerExpansions c) ∨ c.toNat ∈ strangers := by
  have hsource : ∀ e ∈ mapCase lowerRuns lowerExpansions c, isCapitalSource e.toNat = true :=
    fun e he => isCapitalSource_of_upperChar fun d hd => h d (List.mem_flatMap.mpr ⟨e, he, hd⟩)
  rcases mapCase_cases lowerRuns lowerExpansions c with ⟨e, he, -, hc⟩ | ⟨r, hr, m, hm, hc⟩ | hc
  · -- The dotted capital i has a mark in its lower case, which is no letter.
    rw [hc] at hsource
    have hmark : lowerExpansions.all (fun e => e.2.any fun n =>
        !isCapitalSource (Char.ofNat n).toNat) = true := by decide +kernel
    obtain ⟨n, hn, hno⟩ := List.any_eq_true.mp (List.all_eq_true.mp hmark e he)
    simp [hsource (Char.ofNat n) (List.mem_map_of_mem hn)] at hno
  · rw [hc] at h hsource
    rcases ofNat_eq_or m with hn | hzero
    · have hcode := hsource (Char.ofNat m) (by simp)
      rw [hn] at hcode
      exact .inr (mem_strangers_of_run hr hm hcode)
    · rw [hzero] at h
      exact absurd (h '\x00' (by decide +kernel)) (by decide)
  · rw [hc]
    exact .inl (List.append_nil _).symm

/-- A character whose lower case has its upper case in capitals of ASCII has the same upper case,
    unless it is one of two. -/
theorem upperChar_of_lowerChar {c : Char} (h : ∀ d ∈ upper (lowerChar c), isCapital d = true) :
    upperChar c = upper (lowerChar c) ∨ c.toNat ∈ strangers := by
  unfold lowerChar at h ⊢
  split
  · rename_i hbeyond
    rw [if_pos hbeyond] at h
    exact upperChar_of_mapCase h
  · rename_i hascii
    have hall := forall_ascii (p := fun c => upperChar c == upper [c.toLower]) (by decide +kernel)
      (Bool.not_eq_true _ ▸ hascii)
    exact .inl (beq_iff_eq.mp hall)

/-- Whether the word has none of the letters in it that the two characters stand for. -/
def hasNoStranger (w : Text) : Bool := !w.contains 'K' && !Text.hasPart ['S', 'S'] w

/-- The last part of a word has no letters that strangers stand for when the word has none. -/
theorem hasNoStranger_of_append {v w : Text} (h : hasNoStranger (v ++ w) = true) :
    hasNoStranger w = true := by
  simp only [hasNoStranger, Bool.and_eq_true, Bool.not_eq_true', List.contains_eq_mem,
    decide_eq_false_iff_not, List.mem_append, not_or] at h ⊢
  refine ⟨h.1.2, ?_⟩
  by_contra hpart
  rw [Bool.not_eq_false] at hpart
  exact absurd (h.2.symm.trans (Text.hasPart_append_left v hpart)) (by decide)

/-- A character of a word without such letters is no stranger. -/
theorem not_mem_strangers {c : Char} {w : Text}
    (h : hasNoStranger (upper (lowerChar c) ++ w) = true) : c.toNat ∉ strangers := by
  intro hc
  simp only [strangers, List.mem_cons, List.not_mem_nil, or_false] at hc
  rcases hc with hc | hc
  · have hsharp : c = 'ẞ' := Char.ext (UInt32.toNat_inj.mp hc)
    have hupper : upper (lowerChar 'ẞ') = ['S', 'S'] := by decide +kernel
    rw [hsharp, hupper] at h
    simp [hasNoStranger, Text.hasPart] at h
  · have hkelvin : c = Char.ofNat 0x212A := by rw [← hc, Char.ofNat_toNat]
    have hupper : upper (lowerChar (Char.ofNat 0x212A)) = ['K'] := by decide +kernel
    rw [hkelvin, hupper] at h
    simp [hasNoStranger] at h

/-- What spells a word in lower case spells it as it is, unless the word has one of the letters in it
    that other characters stand for. -/
theorem upper_of_lowerFrom {t w : Text} {inWord : Bool} (hw : ∀ d ∈ w, isCapital d = true)
    (hno : hasNoStranger w = true) (h : upper (lowerFrom inWord t) = w) : upper t = w := by
  induction t generalizing inWord w with
  | nil => exact h
  | cons c t ih =>
    subst h
    rw [lowerFrom, upper_append] at hw hno ⊢
    split at hw
    · -- The upper case of either lower case of a capital sigma is no capital of ASCII.
      have hsigma := hw 'Σ' (List.mem_append_left _ (by split <;> decide +kernel))
      exact absurd hsigma (by decide)
    · rename_i hsigma
      rw [if_neg hsigma] at hno ⊢
      have hc := upperChar_of_lowerChar fun d hd => hw d (List.mem_append_left _ hd)
      rw [upper_cons, hc.resolve_right (not_mem_strangers hno),
        ih (fun d hd => hw d (List.mem_append_right _ hd)) (hasNoStranger_of_append hno) rfl]

/-! ### Words of the language -/

/-- The words, apart from verbs, by which a script is read. -/
def bodyWords : List String := ["CASE", "THEN", "DO", "ATOMIC", "NOT"]

/-- Whether the word is one of those by which a script is read. -/
def isGuide (w : String) : Bool := bodyWords.contains w || (Verb.ofKey? w.toList).isSome

/-- A verb is known by its word. -/
theorem Verb.word_of_ofKey? {key : Text} {v : Verb} (h : Verb.ofKey? key = some v) :
    v.word = key := by
  simpa using List.find?_some h

/-- The words by which a script is read are written with capitals of ASCII. -/
theorem isReserved_of_isGuide {w : String} (h : isGuide w = true) : isReserved w = true := by
  have hwords : bodyWords.all isReserved = true := by decide
  have hverbs : Verb.all.all (fun v => !v.word.isEmpty && v.word.all isCapital) = true := by
    decide +kernel
  rw [isGuide, Bool.or_eq_true] at h
  rcases h with h | h
  · exact List.all_eq_true.mp hwords w (List.contains_iff_mem.mp h)
  · obtain ⟨v, hv⟩ := Option.isSome_iff_exists.mp h
    rw [isReserved, ← Verb.word_of_ofKey? hv]
    exact List.all_eq_true.mp hverbs v v.mem_all

/-- The letters of a word that is no verb tell it from other words. -/
theorem hasNoStranger_of_mem {w : String} (h : w ∈ bodyWords) : hasNoStranger w.toList = true := by
  have hall : bodyWords.all (fun w => hasNoStranger w.toList) = true := by decide
  exact List.all_eq_true.mp hall w h

namespace Token

variable {u v : Token}

/-- What is a verb spells one. -/
theorem IsRead.exists_verb (h : u.IsRead) (hk : u.kind = .verb) :
    ∃ verb, Verb.ofKey? u.key = some verb := by
  have hkind := h.kind_eq_of_isBareWord (by rw [hk]; rfl)
  change _ = if (Verb.ofKey? u.key).isSome then Kind.verb
    else if isClauseKey u.key then .clause else .word at hkind
  rw [hk] at hkind
  split at hkind
  · exact Option.isSome_iff_exists.mp ‹_›
  · split at hkind <;> exact absurd hkind (by decide)

/-- What spells a verb is one. -/
theorem IsRead.kind_eq_verb (h : u.IsRead) {w : String} (hw : (Verb.ofKey? w.toList).isSome = true)
    (hs : u.spells w = true) : u.kind = .verb := by
  have hguide : isGuide w = true := by rw [isGuide, hw, Bool.or_true]
  rw [h.kind_eq_of_spells (isReserved_of_isGuide hguide) hs]
  show (if (Verb.ofKey? u.key).isSome then Kind.verb else _) = _
  rw [key_of_spells hs, if_pos hw]

/-- A word that is spelled in some case is spelled in lower case. -/
theorem spells_of_lower (hv : v.text = lower u.text) {w : String} (hw : isGuide w = true)
    (hs : u.spells w = true) : v.spells w = true := by
  have hkey : upper u.text = w.toList := key_of_spells hs
  have hreserved := isReserved_of_isGuide hw
  rw [isReserved, Bool.and_eq_true, List.all_eq_true, ← hkey] at hreserved
  rw [spells, key, hv, lower, upper_lowerFrom hreserved.2, hkey, beq_self_eq_true]

/-- A word that is spelled in lower case is spelled in any case, where both are of one kind. -/
theorem spells_of_spells_lower (hread : u.IsRead) (hread' : v.IsRead) (hkind : v.kind = u.kind)
    (hv : v.text = lower u.text) {w : String} (hw : isGuide w = true) (hs : v.spells w = true) :
    u.spells w = true := by
  have hreserved := isReserved_of_isGuide hw
  rw [isReserved, Bool.and_eq_true, List.all_eq_true] at hreserved
  rw [isGuide, Bool.or_eq_true] at hw
  rcases hw with hw | hw
  · have hkey : upper (lowerFrom false u.text) = w.toList := by
      rw [← key_of_spells hs, key, hv]
      rfl
    rw [spells, key, upper_of_lowerFrom hreserved.2
      (hasNoStranger_of_mem (List.contains_iff_mem.mp hw)) hkey, beq_self_eq_true]
  · -- A verb is told by its kind, and there is only one that the token can be.
    obtain ⟨verb, hverb⟩ := hread.exists_verb (hkind ▸ hread'.kind_eq_verb hw hs)
    have hword : u.spells (String.ofList verb.word) = true := by
      rw [spells, String.toList_ofList, ← Verb.word_of_ofKey? hverb, beq_self_eq_true]
    have hguide : isGuide (String.ofList verb.word) = true := by
      rw [isGuide, String.toList_ofList, Verb.ofKey?_word, Option.isSome_some, Bool.or_true]
    have hsame := key_of_spells (spells_of_lower hv hguide hword)
    rw [spells, ← key_of_spells hs, hsame, key_of_spells hword, beq_self_eq_true]

/-- A token spells the same words of the language in any case, where it is of one kind. -/
theorem spells_eq_of_apply (hread : u.IsRead) (hread' : v.IsRead) (hkind : v.kind = u.kind)
    {l : LetterCase} (hv : v.text = l.apply u.text) {w : String} (hw : isGuide w = true) :
    v.spells w = u.spells w := by
  cases l with
  | preserve => rw [spells, spells, key, key, hv]; rfl
  | upper => rw [spells, spells, key, key, hv, LetterCase.apply, upper_upper]
  | lower =>
    rw [Bool.eq_iff_iff]
    exact ⟨spells_of_spells_lower hread hread' hkind hv hw, spells_of_lower hv hw⟩

end Token

end SqlScript
