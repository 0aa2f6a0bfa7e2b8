import SqlScript.Proofs.Token.Lexeme
import SqlScript.Proofs.Token.Reach

namespace SqlScript

open Unicode LexicalRule

/-!
# The rule that applies

Which lexical rule applies at the front of a text, told by the first characters of the text.

* `numberReach_eq_zero` and its companions — what a form of token cannot start with;
* `first_eq_string`, `first_eq_number`, `first_eq_word`, `first_eq_operator` and the others — the
  rule that applies, without the rules that are tried before it.
-/

/-! ### What a token starts with -/

/-- A comment starts with a dash or a slash. -/
theorem commentReach_eq_zero {c : Char} (h : c ≠ '-') (h' : c ≠ '/') (t : Text) :
    commentReach (c :: t) = 0 := by
  unfold commentReach
  split
  · exact absurd (by simp_all) h
  · exact absurd (by simp_all) h'
  · rfl

/-- What is quoted starts with its mark. -/
theorem quotedReach_eq_zero {quote c : Char} (h : c ≠ quote) (t : Text) :
    quotedReach quote (c :: t) = 0 := by
  simp [quotedReach, h]

/-- The prefix of a literal starts with the letter of a type, or with `u`. -/
theorem literalPrefix_eq_zero {c : Char} (h : isTypeLetter c = false) (hu : c ≠ 'u')
    (hU : c ≠ 'U') (t : Text) : literalPrefix (c :: t) = 0 := by
  unfold literalPrefix
  split
  · simp_all
  · simp_all
  · rfl

/-- Without a prefix there is no literal with a prefix. -/
theorem prefixedReach_eq_zero {t : Text} (h : literalPrefix t = 0) : prefixedReach t = 0 := by
  rw [prefixedReach, h]

/-- Where there is a prefix there is a literal with it, if only of the prefix and its quote. -/
theorem prefixedReach_pos {t : Text} (h : literalPrefix t ≠ 0) : 0 < prefixedReach t := by
  rw [prefixedReach]
  split
  · exact absurd ‹_› h
  · omega

/-- A number starts with a digit, or with a dot. -/
theorem head_of_numberReach_pos {t : Text} (h : 0 < numberReach t) :
    ∃ c v, t = c :: v ∧ (isDecimalDigit c = true ∨ c = '.') := by
  cases t with
  | nil => simp [numberReach, digitsReach, runLength, fractionReach] at h
  | cons c v =>
    refine ⟨c, v, rfl, ?_⟩
    by_contra hne
    rw [not_or, Bool.not_eq_true] at hne
    have hfraction : fractionReach (c :: v) = 0 := by
      rw [fractionReach]
      rintro rest hc
      exact hne.2 (List.cons.inj hc).1
    simp [numberReach, digitsReach, runLength, hne.1, hfraction] at h

/-- What starts with neither a digit nor a dot is no number. -/
theorem numberReach_eq_zero {c : Char} (h : isDecimalDigit c = false) (h' : c ≠ '.') (t : Text) :
    numberReach (c :: t) = 0 := by
  by_contra hne
  obtain ⟨d, v, ht, hd⟩ := head_of_numberReach_pos (Nat.pos_of_ne_zero hne)
  obtain ⟨rfl, rfl⟩ := List.cons.inj ht
  simp_all

/-- Digits start a number. -/
theorem numberReach_pos {c : Char} (h : isDecimalDigit c = true) (t : Text) :
    0 < numberReach (c :: t) := by
  have hdigits : 0 < digitsReach (c :: t) := by simp [digitsReach, runLength, h]
  rw [numberReach]
  split <;> omega

/-- A word starts with a character that can start one. -/
theorem wordReach_eq_zero {c : Char} (h : startsWord c = false) (t : Text) :
    wordReach (c :: t) = 0 := by
  simp [wordReach, h]

/-- The characters that operators start with. -/
def startsOperator (c : Char) : Bool := "-+*/%<>!|&^~?:=".toList.contains c

/-- An operator, be it of one character or more, starts with one of these. -/
theorem startsOperator_of_operatorReach_pos {c : Char} {t : Text}
    (h : 0 < operatorReach (c :: t)) : startsOperator c = true := by
  have hlong : longOperators.all (fun o => o.head?.any startsOperator) = true := by decide
  rw [operatorReach] at h
  split at h
  · rename_i ho
    obtain ⟨o, ho, hp⟩ := List.any_eq_true.mp ho
    have hhead := List.all_eq_true.mp hlong o ho
    obtain ⟨v, hv⟩ := List.isPrefixOf_iff_prefix.mp hp
    cases o with
    | nil => simp at hhead
    | cons d o =>
      obtain ⟨rfl, -⟩ := List.cons.inj hv
      simpa using hhead
  · have hc : isOperatorCharacter c = true := by
      by_contra hc
      simp [headReach, hc] at h
    simp only [isOperatorCharacter, startsOperator, List.contains_iff_mem] at hc ⊢
    have hsub : "-+*/%<>!|&^~?".toList ⊆ "-+*/%<>!|&^~?:=".toList := by decide
    exact hsub hc

/-- A test that fails for every character of a list tells that a character is not in the list. -/
theorem apply_eq_false_of_mem {p : Char → Bool} {l : List Char} {c : Char} (hc : l.contains c = true)
    (h : l.all (fun d => !p d) = true) : p c = false := by
  simpa using List.all_eq_true.mp h c (List.contains_iff_mem.mp hc)

/-! ### Which rule applies -/

namespace LexicalRule

/-- A quotation mark starts a string. -/
theorem first_eq_string (t : Text) : first ('\'' :: t) = string := by
  refine first_eq_of_order [blanks, comment] rfl ?_
    (by simp only [reach, quotedReach, if_true]; omega)
  simp [reach, runLength, commentReach_eq_zero, show isBlank '\'' = false by decide]

/-- A double quotation mark starts a delimited name. -/
theorem first_eq_delimited (t : Text) : first ('"' :: t) = delimited := by
  refine first_eq_of_order [blanks, comment, string] rfl ?_
    (by simp only [reach, quotedReach, if_true]; omega)
  simp [reach, runLength, commentReach_eq_zero, quotedReach, show isBlank '"' = false by decide]

/-- Two dashes start a comment. -/
theorem first_eq_comment_of_dashes (t : Text) : first ('-' :: '-' :: t) = comment := by
  refine first_eq_of_order [blanks] rfl ?_
    (by simp only [reach, commentReach]; omega)
  simp [reach, runLength, show isBlank '-' = false by decide]

/-- A slash and an asterisk start a comment. -/
theorem first_eq_comment_of_mark (t : Text) : first ('/' :: '*' :: t) = comment := by
  refine first_eq_of_order [blanks] rfl ?_
    (by simp only [reach, commentReach]; omega)
  simp [reach, runLength, show isBlank '/' = false by decide]

/-- The letters of a literal's prefix. -/
theorem head_of_literalPrefix_ne_zero {t : Text} (h : literalPrefix t ≠ 0) :
    ∃ c v, t = c :: v ∧ "xXnNgGuU".toList.contains c = true := by
  revert h
  unfold literalPrefix
  split
  · rename_i c rest
    intro h
    have hc : isTypeLetter c = true := by
      by_contra hc
      simp [hc] at h
    have hsub : "xXnNgG".toList ⊆ "xXnNgGuU".toList := by decide
    exact ⟨c, _, rfl, List.contains_iff_mem.mpr (hsub (List.contains_iff_mem.mp hc))⟩
  · rename_i c d rest _
    intro h
    have hc : c = 'u' ∨ c = 'U' := by
      by_contra hc
      simp [hc] at h
    exact ⟨c, _, rfl, by rcases hc with rfl | rfl <;> decide⟩
  · simp

/-- The prefix of a literal starts one, and no word. -/
theorem first_eq_prefixedString {t : Text} (h : literalPrefix t ≠ 0) :
    first t = prefixedString := by
  obtain ⟨c, v, rfl, hc⟩ := head_of_literalPrefix_ne_zero h
  have hblank : isBlank c = false := apply_eq_false_of_mem hc (by decide)
  have hne : ∀ d : Char, "xXnNgGuU".toList.contains d = false → c ≠ d :=
    fun d hd => ne_of_apply_eq_true hc hd
  refine first_eq_of_order [blanks, comment, string, delimited] rfl ?_
    (prefixedReach_pos h)
  simp [reach, runLength, hblank, commentReach_eq_zero (hne '-' (by decide)) (hne '/' (by decide)),
    quotedReach_eq_zero (hne '\'' (by decide)), quotedReach_eq_zero (hne '"' (by decide))]

/-- Where there is a number, no rule before that of numbers applies. -/
theorem first_eq_number {t : Text} (h : 0 < numberReach t) : first t = number := by
  obtain ⟨c, v, rfl, hc⟩ := head_of_numberReach_pos h
  -- A digit is no other character that a rule before this one starts with, and neither is a dot.
  have hne : ∀ d : Char, isDecimalDigit d = false → d ≠ '.' → c ≠ d := by
    rintro d hd hdot rfl
    rcases hc with hc | hc
    · exact absurd (hc.symm.trans hd) (by decide)
    · exact hdot hc
  have hblank : isBlank c = false := by
    rcases hc with hc | rfl
    · exact not_isBlank_of_isDecimalDigit hc
    · decide
  have hletter : isTypeLetter c = false := by
    cases hl : isTypeLetter c with
    | false => rfl
    | true =>
      have hd : isDecimalDigit c = false := apply_eq_false_of_mem hl (by decide)
      have hdot : c ≠ '.' := ne_of_apply_eq_true hl (by decide)
      simp_all
  have hprefix : literalPrefix (c :: v) = 0 :=
    literalPrefix_eq_zero hletter (hne 'u' (by decide) (by decide))
      (hne 'U' (by decide) (by decide)) v
  refine first_eq_of_order
    [blanks, comment, string, delimited, prefixedString] rfl ?_ h
  simp [reach, runLength, hblank, prefixedReach_eq_zero hprefix,
    commentReach_eq_zero (hne '-' (by decide) (by decide)) (hne '/' (by decide) (by decide)),
    quotedReach_eq_zero (hne '\'' (by decide) (by decide)),
    quotedReach_eq_zero (hne '"' (by decide) (by decide))]

/-- A character that can start a word does, unless it is part of a literal's prefix. -/
theorem first_eq_word {c : Char} {t : Text} (hc : startsWord c = true)
    (hp : literalPrefix (c :: t) = 0) : first (c :: t) = word := by
  have hne : ∀ d : Char, startsWord d = false → c ≠ d := fun d hd => ne_of_apply_eq_true hc hd
  have hblank := not_isBlank_of_continuesWord (continuesWord_of_startsWord hc)
  refine first_eq_of_order
    [blanks, comment, string, delimited, prefixedString, number] rfl ?_
    (by simp only [reach, wordReach, hc, if_true]; omega)
  simp [reach, runLength, hblank, prefixedReach_eq_zero hp,
    commentReach_eq_zero (hne '-' (by decide)) (hne '/' (by decide)),
    quotedReach_eq_zero (hne '\'' (by decide)), quotedReach_eq_zero (hne '"' (by decide)),
    numberReach_eq_zero (not_isDecimalDigit_of_startsWord hc) (hne '.' (by decide))]

/-- The rules before the one for operators take nothing in front of an operator, those for
    comments apart. -/
theorem reach_eq_zero_of_startsOperator {c : Char} (hc : startsOperator c = true) (t : Text) :
    ∀ q ∈ [blanks, string, delimited, prefixedString, number, word], q.reach (c :: t) = 0 := by
  have hblank : isBlank c = false := apply_eq_false_of_mem hc (by decide)
  have hword : startsWord c = false := apply_eq_false_of_mem hc (by decide)
  have hdigit : isDecimalDigit c = false := apply_eq_false_of_mem hc (by decide)
  have hletter : isTypeLetter c = false := apply_eq_false_of_mem hc (by decide)
  have hne : ∀ d : Char, startsOperator d = false → c ≠ d := fun d hd => ne_of_apply_eq_true hc hd
  have hprefix := literalPrefix_eq_zero hletter (hne 'u' (by decide)) (hne 'U' (by decide)) t
  simp [reach, runLength, hblank, wordReach_eq_zero hword, prefixedReach_eq_zero hprefix,
    numberReach_eq_zero hdigit (hne '.' (by decide)), quotedReach_eq_zero (hne '\'' (by decide)),
    quotedReach_eq_zero (hne '"' (by decide))]

/-- Where there is an operator, it is read as one, unless a comment starts there. -/
theorem first_eq_operator {c : Char} {t : Text} (h : 0 < operatorReach (c :: t))
    (hc : commentReach (c :: t) = 0) : first (c :: t) = operator := by
  have hz := reach_eq_zero_of_startsOperator (startsOperator_of_operatorReach_pos h) t
  refine first_eq_of_order
    [blanks, comment, string, delimited, prefixedString, number, word] rfl ?_ h
  intro q hq
  by_cases hqc : q = comment
  · subst hqc
    exact hc
  · exact hz q (by simp_all)

/-- A mark of punctuation is read as such, unless it starts an operator or a number. -/
theorem first_eq_punctuation {c : Char} {k : Kind} {t : Text} (hk : punctuationKind? c = some k)
    (ho : operatorReach (c :: t) = 0) (hn : numberReach (c :: t) = 0) :
    first (c :: t) = punctuation := by
  have hmem : "(),.:=;".toList.contains c = true := by
    unfold punctuationKind? at hk
    split at hk <;> first | decide | simp at hk
  have hblank : isBlank c = false := apply_eq_false_of_mem hmem (by decide)
  have hword : startsWord c = false := apply_eq_false_of_mem hmem (by decide)
  have hletter : isTypeLetter c = false := apply_eq_false_of_mem hmem (by decide)
  have hne : ∀ d : Char, "(),.:=;".toList.contains d = false → c ≠ d :=
    fun d hd => ne_of_apply_eq_true hmem hd
  have hprefix := literalPrefix_eq_zero hletter (hne 'u' (by decide)) (hne 'U' (by decide)) t
  refine first_eq_of_order
    [blanks, comment, string, delimited, prefixedString, number, word, operator] rfl ?_
    (by simp [reach, punctuationReach, headReach, hk])
  simp [reach, runLength, hblank, wordReach_eq_zero hword, prefixedReach_eq_zero hprefix, hn, ho,
    commentReach_eq_zero (hne '-' (by decide)) (hne '/' (by decide)),
    quotedReach_eq_zero (hne '\'' (by decide)), quotedReach_eq_zero (hne '"' (by decide))]

end LexicalRule

end SqlScript
