import SqlScript.Layout.Line
import SqlScript.Proofs.Token.Recase
import SqlScript.Proofs.Unicode.WordCase

namespace SqlScript

open Unicode
open LexicalRule (wordKind)

/-!
# Words in another case as tokens

What is written for a word in another case is read as a word of the same kind again, with two
exceptions. The case of some characters has a mark in it that belongs to no word, so that the word
ends there. And the sign of the unit kelvin has a letter as its lower case, so that a name with the
sign in it can turn into one of two verbs.

* `Text.IsWord` — whether a text is a word, and `Text.IsWord.scan_eq` — it is one token then;
* `Respelled` — what a case does to a word without marked characters;
* `isWord_apply_iff` — a word is one in another case when there is no marked character in it;
* `wordKind_lower_iff` — when the kind is the same in lower case;
* `Token.scan_apply_iff` — when a token of a text is read in another case as it was.
-/

/-! ### Words -/

/-- Whether the text is a word: each character can be part of one, and the first one can start
    one. -/
structure Text.IsWord (t : Text) : Prop where
  ne_nil : t ≠ []
  head : ∀ c ∈ t.head?, startsWord c = true
  all : ∀ c ∈ t, continuesWord c = true

/-- A word is read as one token. -/
theorem Text.IsWord.scan_eq {t : Text} (h : t.IsWord) :
    Token.scan t = [.placed (wordKind t) t 0] := by
  obtain ⟨c, v, rfl⟩ := List.exists_cons_of_ne_nil h.ne_nil
  have hall : v.all continuesWord = true :=
    List.all_eq_true.mpr fun d hd => h.all d (List.mem_cons_of_mem c hd)
  have hprefix : literalPrefix (c :: v ++ []) = 0 := by
    -- There is no quote in a word that the prefix of a literal could stand in front of.
    by_contra hne
    obtain ⟨p, w, hsplit, -⟩ := exists_of_literalPrefix_ne_zero hne
    have hquote : '\'' ∈ c :: v := by
      rw [← List.append_nil (c :: v), hsplit]
      simp
    exact absurd (h.all '\'' hquote) (by decide +kernel)
  exact Token.scan_of_readBefore_nil
    (Lexeme.Form.word (h.head c rfl) hall (by simp) hprefix).readBefore

/-- A token that is a word has a word as its text. -/
theorem Token.IsRead.isWord {u : Token} (h : u.IsRead) (hk : u.kind.isBareWord = true) :
    u.text.IsWord := by
  obtain ⟨rest, hread⟩ := h
  have hform := hread.form
  obtain ⟨kind, text, span⟩ := u
  change Lexeme.Form ⟨kind, text⟩ rest at hform
  cases hform with
  | @word c v _ hc hv =>
    refine ⟨by simp, fun d hd => ?_, fun d hd => ?_⟩
    · obtain rfl : c = d := by simpa using hd
      exact hc
    · rcases List.mem_cons.mp hd with rfl | hd
      · exact continuesWord_of_startsWord hc
      · exact List.all_eq_true.mp hv d hd
  | @punctuation c k _ hp =>
    rw [punctuationKind?_eq_some_iff] at hp
    cases kind <;> simp_all [Kind.isBareWord, Kind.mark?]
  | _ => simp [Kind.isBareWord] at hk

/-- The only token of a text without blanks is the text. -/
theorem Token.text_eq_of_scan {t : Text} (hb : ∀ c ∈ t, isBlank c = false) {u : Token}
    (h : scan t = [u]) : u.text = t := by
  cases t with
  | nil => exact absurd h (by simp [scan, scanFrom])
  | cons c v =>
    obtain ⟨x, rest, hsplit, hread⟩ := exists_readBefore (t := v) (hb c (by simp))
    rw [hsplit, scan, scanFrom_append hread, List.cons.injEq] at h
    obtain ⟨rfl, hrest⟩ := h
    rw [hsplit]
    cases rest with
    | nil => exact (List.append_nil _).symm
    | cons d w =>
      -- There would be another token behind the first one.
      have hd : isBlank d = false := hb d (by rw [hsplit]; simp)
      obtain ⟨y, rest', hsplit', hread'⟩ := exists_readBefore (t := w) hd
      rw [hsplit', scanFrom_append hread'] at hrest
      contradiction

/-- A case makes nothing blank. -/
theorem Recased.forall_not_isBlank {t u : Text} (h : Recased t u)
    (ht : ∀ c ∈ t, Unicode.isBlank c = false) : ∀ d ∈ u, Unicode.isBlank d = false := by
  induction h with
  | nil => exact ht
  | same c _ ih =>
    rw [List.forall_mem_cons] at ht ⊢
    exact ⟨ht.1, ih ht.2⟩
  | other _ _ himage _ ih =>
    rw [List.forall_mem_cons] at ht
    rw [List.forall_mem_append]
    exact ⟨himage, ih ht.2⟩

/-! ### Marks -/

/-- The characters with a mark in that case. -/
def LetterCase.marked : LetterCase → List Nat
  | preserve => []
  | upper => markedUpper
  | lower => markedLower

/-- Whether the second text is the first one with each character replaced by at least one, be it the
    same or others that start a word. -/
inductive Respelled : Text → Text → Prop
  | nil : Respelled [] []
  | cons {c : Char} {image t u : Text} : image ≠ [] → (∀ d ∈ image, d = c ∨ startsWord d = true) →
      Respelled t u → Respelled (c :: t) (image ++ u)

/-- A word is a word when it is respelled. -/
theorem Respelled.isWord {t u : Text} (h : Respelled t u) (ht : t.IsWord) : u.IsWord := by
  have hall : ∀ {t u : Text}, Respelled t u → (∀ c ∈ t, continuesWord c = true) →
      ∀ d ∈ u, continuesWord d = true := by
    intro t u h ht
    induction h with
    | nil => exact ht
    | @cons c image t u _ himage _ ih =>
      rw [List.forall_mem_cons] at ht
      rw [List.forall_mem_append]
      refine ⟨fun d hd => ?_, ih ht.2⟩
      rcases himage d hd with rfl | hstarts
      · exact ht.1
      · exact continuesWord_of_startsWord hstarts
  have hu := hall h ht.all
  -- What the first character is replaced by is where the word starts.
  cases h with
  | nil => exact absurd rfl ht.ne_nil
  | @cons c image t u hne himage _ =>
    obtain ⟨e, image, rfl⟩ := List.exists_cons_of_ne_nil hne
    refine ⟨by simp, fun d hd => ?_, hu⟩
    obtain rfl : e = d := by simpa using hd
    rcases himage e (by simp) with rfl | hstarts
    · exact ht.head e (by simp)
    · exact hstarts

/-- What a mapping that keeps words gives for a character of a word can be part of one. -/
theorem startsWord_of_keepsWords {f : Char → List Char} {exempt : List Nat}
    (hf : KeepsWords f exempt) (hnational : ∀ c, isNationalCharacter c = true → f c = [c])
    {c : Char} (hc : continuesWord c = true) (hno : c.toNat ∉ exempt) :
    ∀ d ∈ f c, d = c ∨ startsWord d = true := by
  intro d hd
  rw [continuesWord, Bool.or_eq_true] at hc
  rcases hc with hword | hnat
  · rcases hf c hword hno d hd with hsame | hletter
    · exact .inl hsame
    · rw [isLetter] at hletter
      exact .inr (by rw [startsWord, hletter, Bool.true_or])
  · rw [hnational c hnat] at hd
    exact .inl (List.mem_singleton.mp hd)

/-- There are three national characters. -/
private theorem eq_of_isNationalCharacter {c : Char} (h : isNationalCharacter c = true) :
    c = '@' ∨ c = '#' ∨ c = '$' := by
  simpa [isNationalCharacter, or_assoc] using h

/-- The national characters are their own upper case. -/
theorem upperChar_national (c : Char) (h : isNationalCharacter c = true) : upperChar c = [c] := by
  rcases eq_of_isNationalCharacter h with rfl | rfl | rfl <;> decide +kernel

/-- The national characters are their own lower case. -/
theorem lowerChar_national (c : Char) (h : isNationalCharacter c = true) : lowerChar c = [c] := by
  rcases eq_of_isNationalCharacter h with rfl | rfl | rfl <;> decide +kernel

/-- A case mapping that keeps blanks gives at least one character. -/
theorem ne_nil_of_keepsBlanks {f : Char → List Char} (hf : KeepsBlanks f) (c : Char) :
    f c ≠ [] := by
  cases hc : isBlank c with
  | true =>
    rw [hf.1 c hc]
    simp
  | false => exact (hf.2 c hc).1

/-- Characters of words are respelled in upper case when none is marked. -/
theorem respelled_upper {t : Text} (ht : ∀ c ∈ t, continuesWord c = true)
    (hno : ∀ c ∈ t, c.toNat ∉ markedUpper) : Respelled t (upper t) := by
  induction t with
  | nil => exact .nil
  | cons c t ih =>
    rw [List.forall_mem_cons] at ht hno
    rw [upper_cons]
    refine .cons (ne_nil_of_keepsBlanks keepsBlanks_upperChar c) ?_ (ih ht.2 hno.2)
    exact startsWord_of_keepsWords keepsWords_upperChar upperChar_national ht.1 hno.1

/-- A word without marked letters is respelled in lower case, each character on its own. -/
theorem respelled_lowerFrom {t : Text} (ht : ∀ c ∈ t, continuesWord c = true)
    (hno : ∀ c ∈ t, c.toNat ∉ markedLower) (inWord : Bool) : Respelled t (lowerFrom inWord t) := by
  induction t generalizing inWord with
  | nil => exact .nil
  | cons c t ih =>
    rw [List.forall_mem_cons] at ht hno
    rw [lowerFrom]
    refine .cons ?_ ?_ (ih ht.2 hno.2 _)
    · split
      · split <;> simp
      · exact ne_nil_of_keepsBlanks keepsBlanks_lowerChar c
    · split
      · -- Both lower cases of a capital sigma are letters.
        split <;> intro d hd <;> rw [List.mem_singleton.mp hd] <;> exact .inr (by decide +kernel)
      · exact startsWord_of_keepsWords keepsWords_lowerChar lowerChar_national ht.1 hno.1

/-- The lower case of a character other than a capital sigma is in the lower case of a text. -/
theorem mem_lowerFrom {t : Text} {c d : Char} (hc : c ∈ t) (hsigma : c ≠ 'Σ')
    (hd : d ∈ lowerChar c) (inWord : Bool) : d ∈ lowerFrom inWord t := by
  induction t generalizing inWord with
  | nil => exact absurd hc (by simp)
  | cons e t ih =>
    rw [lowerFrom, List.mem_append]
    rcases List.mem_cons.mp hc with rfl | hc
    · rw [if_neg hsigma]
      exact .inl hd
    · exact .inr (ih hc _)

/-- A word is one in another case exactly when no character of it is marked in that case. -/
theorem isWord_apply_iff {t : Text} (ht : t.IsWord) (l : LetterCase) :
    (l.apply t).IsWord ↔ ∀ c ∈ t, c.toNat ∉ l.marked := by
  cases l with
  | preserve => exact iff_of_true ht fun c _ => List.not_mem_nil
  | upper =>
    refine ⟨fun h c hc hmarked => ?_, fun h => (respelled_upper ht.all h).isWord ht⟩
    obtain ⟨d, hd, hno⟩ := exists_mark_upperChar hmarked
    have hall := h.all d (List.mem_flatMap.mpr ⟨c, hc, hd⟩)
    exact absurd (hall.symm.trans hno) (by decide)
  | lower =>
    refine ⟨fun h c hc hmarked => ?_, fun h => (respelled_lowerFrom ht.all h false).isWord ht⟩
    obtain ⟨d, hd, hno⟩ := exists_mark_lowerChar hmarked
    have hsigma : c ≠ 'Σ' := by
      rintro rfl
      exact absurd hmarked (by decide)
    have hall := h.all d (mem_lowerFrom hc hsigma hd false)
    exact absurd (hall.symm.trans hno) (by decide)

/-! ### Kinds -/

/-- Whether what spells the key is a word of the language: a verb, or one that introduces a
    clause. -/
def isStructuralKey (key : Text) : Bool := (Verb.ofKey? key).isSome || isClauseKey key

/-- The verbs with the letter in them that the sign of the unit kelvin stands for in lower case. -/
def kelvinVerbs : List Verb := [.REVOKE, .ROLLBACK]

/-- A word is a plain one when its key has no meaning of its own. -/
theorem wordKind_eq_word_iff {t : Text} :
    wordKind t = .word ↔ isStructuralKey (upper t) = false := by
  show (if (Verb.ofKey? (upper t)).isSome then Kind.verb
    else if isClauseKey (upper t) then .clause else .word) = .word ↔ _
  unfold isStructuralKey
  cases (Verb.ofKey? (upper t)).isSome <;> cases isClauseKey (upper t) <;> simp

/-- Words with the same key are of the same kind. -/
theorem wordKind_congr {t u : Text} (h : upper u = upper t) : wordKind u = wordKind t := by
  rw [wordKind, wordKind, h]

/-- The words of the language as keys. -/
theorem forall_isStructuralKey {p : Text → Bool} (hverbs : Verb.all.all (fun v => p v.word) = true)
    (hclauses : clauseWords.all (fun w => p w.toList) = true) {key : Text}
    (h : isStructuralKey key = true) : p key = true := by
  rw [isStructuralKey, Bool.or_eq_true] at h
  rcases h with h | h
  · obtain ⟨v, hv⟩ := Option.isSome_iff_exists.mp h
    rw [← Verb.word_of_ofKey? hv]
    exact List.all_eq_true.mp hverbs v v.mem_all
  · rw [isClauseKey, isOneOf, List.any_eq_true] at h
    obtain ⟨w, hw, hkey⟩ := h
    rw [← beq_iff_eq.mp hkey]
    exact List.all_eq_true.mp hclauses w hw

/-- The keys with a meaning are written in capitals. -/
theorem isCapital_of_isStructuralKey {key : Text} (h : isStructuralKey key = true) :
    ∀ d ∈ key, isCapital d = true :=
  List.all_eq_true.mp
    (forall_isStructuralKey (p := fun key => key.all isCapital) (by decide +kernel)
      (by decide +kernel) h)

/-- A key with a meaning, the verbs with a `K` apart, has no letter that a stranger stands for. -/
theorem hasNoStranger_of_isStructuralKey {key : Text} (h : isStructuralKey key = true)
    (hno : ∀ v ∈ kelvinVerbs, key ≠ v.word) : hasNoStranger key = true := by
  have hor := forall_isStructuralKey
    (p := fun key => hasNoStranger key || kelvinVerbs.any (fun v => key == v.word))
    (by decide +kernel) (by decide +kernel) h
  rw [Bool.or_eq_true, List.any_eq_true] at hor
  rcases hor with hor | ⟨v, hv, hkey⟩
  · exact hor
  · exact absurd (beq_iff_eq.mp hkey) (hno v hv)

/-- The word of a verb is a key with a meaning. -/
theorem isStructuralKey_word (v : Verb) : isStructuralKey v.word = true := by
  rw [isStructuralKey, Verb.ofKey?_word]
  rfl

/-- A word is of the same kind in lower case, unless it is a name there that turns into one of two
    verbs. -/
theorem wordKind_lower_iff {t : Text} :
    wordKind (lower t) = wordKind t ↔
      (wordKind t = .word → ∀ v ∈ kelvinVerbs, upper (lower t) ≠ v.word) := by
  cases hkey : isStructuralKey (upper t) with
  | true =>
    -- A word of the language is spelled the same in lower case.
    refine iff_of_true (wordKind_congr (upper_lowerFrom (isCapital_of_isStructuralKey hkey) false))
      fun hword => ?_
    rw [wordKind_eq_word_iff, hkey] at hword
    contradiction
  | false =>
    have hword := wordKind_eq_word_iff.mpr hkey
    rw [hword, wordKind_eq_word_iff]
    constructor
    · intro hlower _ v _ hv
      rw [hv, isStructuralKey_word] at hlower
      contradiction
    · intro hno
      by_contra hlower
      rw [Bool.not_eq_false] at hlower
      -- What is spelled in lower case would be spelled by the word itself.
      have hsame : upper t = upper (lower t) :=
        upper_of_lowerFrom (isCapital_of_isStructuralKey hlower)
          (hasNoStranger_of_isStructuralKey hlower (hno rfl)) rfl
      rw [hsame, hlower] at hkey
      contradiction

/-- A name with the sign of the unit kelvin in it is a verb in lower case. -/
example : wordKind "REVO\u212AE".toList = .word ∧
    wordKind (lower "REVO\u212AE".toList) = .verb := by
  decide +kernel

/-- When a word is of the same kind in another case. -/
theorem wordKind_apply_iff {t : Text} (l : LetterCase) :
    wordKind (l.apply t) = wordKind t ↔
      (l = .lower → wordKind t = .word → ∀ v ∈ kelvinVerbs, upper (lower t) ≠ v.word) := by
  cases l with
  | preserve => exact iff_of_true rfl fun h => absurd h (by decide)
  | upper => exact iff_of_true (wordKind_congr (upper_upper t)) fun h => absurd h (by decide)
  | lower => exact wordKind_lower_iff.trans ⟨fun h _ => h, fun h => h rfl⟩

/-- What is read of a word in another case: one token of the kind of the word, exactly when it is a
    word in that case, of that kind. -/
theorem exists_scan_apply_iff {t : Text} (ht : t.IsWord) (l : LetterCase) :
    (∃ u, Token.scan (l.apply t) = [u] ∧ u.kind = wordKind t) ↔
      (l.apply t).IsWord ∧ wordKind (l.apply t) = wordKind t := by
  constructor
  · rintro ⟨u, hscan, hkind⟩
    -- The token is the whole text, as there is nothing blank to be left out of it.
    have hblank : ∀ d ∈ l.apply t, isBlank d = false :=
      (LetterCase.recased l t).forall_not_isBlank fun c hc =>
        not_isBlank_of_continuesWord (ht.all c hc)
    have hread : u.IsRead := Token.isRead_of_mem_scan (by rw [hscan]; simp)
    have hbare : u.kind.isBareWord = true := by
      rw [hkind]
      exact isBareWord_wordKind t
    have htext := Token.text_eq_of_scan hblank hscan
    rw [← htext]
    exact ⟨hread.isWord hbare, (hread.kind_eq_of_isBareWord hbare).symm.trans hkind⟩
  · rintro ⟨hword, hkind⟩
    exact ⟨_, hword.scan_eq, hkind⟩

namespace Token

/-- A word of a text is read in another case as one token of the same kind, exactly when no
    character of it has a mark in that case that belongs to no word, and when it is no name that
    turns into one of two verbs in lower case. -/
theorem scan_apply_iff {t : Text} {w : Token} (hw : w ∈ scan t) (hbare : w.kind.isBareWord = true)
    (l : LetterCase) :
    (∃ u, scan (l.apply w.text) = [u] ∧ u.kind = w.kind) ↔
      (∀ c ∈ w.text, c.toNat ∉ l.marked) ∧
        (l = .lower → w.kind = .word → ∀ v ∈ kelvinVerbs, upper (lower w.text) ≠ v.word) := by
  have hread := isRead_of_mem_scan hw
  have hword := hread.isWord hbare
  rw [hread.kind_eq_of_isBareWord hbare, exists_scan_apply_iff hword, isWord_apply_iff hword,
    wordKind_apply_iff]

/-- A verb in mixed case is the same token in lower case. -/
theorem scan_apply_iff_verb :
    placed .verb "Select".toList 0 ∈ scan "Select".toList ∧ Kind.verb.isBareWord = true ∧
      ∃ u, scan (LetterCase.lower.apply "Select".toList) = [u] ∧ u.kind = .verb :=
  have hscan : placed .verb "Select".toList 0 ∈ scan "Select".toList := by
    have hall : scan "Select".toList = [placed .verb "Select".toList 0] := by decide +kernel
    rw [hall]
    exact List.mem_singleton_self _
  have hunmarked : "Select".toList.all (fun c => !markedLower.contains c.toNat) = true := by
    decide +kernel
  have hno : ∀ c ∈ "Select".toList, c.toNat ∉ markedLower := fun c hc => by
    simpa using List.all_eq_true.mp hunmarked c hc
  ⟨hscan, rfl, (scan_apply_iff hscan rfl .lower).mpr ⟨hno, fun _ h => absurd h (by decide)⟩⟩

/-- The dotted capital i is two tokens in lower case, as the dot is a mark of its own there. -/
theorem not_scan_apply_dotted :
    ¬∀ (t : Text) (w : Token) (l : LetterCase), w ∈ scan t → w.kind.isBareWord = true →
      ∃ u, scan (l.apply w.text) = [u] ∧ u.kind = w.kind := by
  intro h
  have hscan : scan "\u0130".toList = [placed .word "\u0130".toList 0] := by decide +kernel
  have hlower : scan (LetterCase.lower.apply "\u0130".toList) =
      [placed .word "i".toList 0, placed .unknown "\u0307".toList 1] := by decide +kernel
  obtain ⟨u, hu, -⟩ := h _ _ .lower (by rw [hscan]; exact List.mem_singleton_self _) rfl
  exact absurd (hlower.symm.trans hu) (by simp)

end Token

end SqlScript
