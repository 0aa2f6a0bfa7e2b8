import SqlScript.Proofs.Token.Rule

namespace SqlScript

open Unicode LexicalRule

/-!
# The forms of lexemes

What a lexeme looks like, and what it asks of the text behind it.

* `Lexeme.Form` — the forms of lexemes, each with what can stand behind it;
* `readBefore_iff_form` — a lexeme is read in front of a text exactly when it has a form there, so
  that the order of the lexical rules is not needed any more.
-/

/-! ### Parts of forms -/

/-- Whether the text starts with one of the operators of two characters. -/
def startsLongOperator (t : Text) : Bool := longOperators.any (·.isPrefixOf t)

/-- Whether the text is the prefix of a string literal. -/
def IsLiteralPrefix (p : Text) : Prop :=
  (∃ c, p = [c] ∧ isTypeLetter c = true) ∨
    ∃ c d, p = [c, d] ∧ (c = 'u' ∨ c = 'U') ∧ (d = 'x' ∨ d = 'X')

/-- A literal prefix is not empty. -/
theorem IsLiteralPrefix.ne_nil {p : Text} (hp : IsLiteralPrefix p) : p ≠ [] := by
  rcases hp with ⟨c, rfl, -⟩ | ⟨c, d, rfl, -⟩ <;> simp

/-- The letters in front of a quote that are the prefix of a literal are found there. -/
theorem literalPrefix_append {p : Text} (hp : IsLiteralPrefix p) (t : Text) :
    literalPrefix (p ++ '\'' :: t) = p.length := by
  rcases hp with ⟨c, rfl, hc⟩ | ⟨c, d, rfl, hc, hd⟩
  · simp [literalPrefix, hc]
  · rcases hd with rfl | rfl <;> simp [literalPrefix, hc]

/-- What is found in front of a literal is a prefix with a quote behind it. -/
theorem exists_of_literalPrefix_ne_zero {t : Text} (h : literalPrefix t ≠ 0) :
    ∃ p v, t = p ++ '\'' :: v ∧ IsLiteralPrefix p := by
  revert h
  unfold literalPrefix
  split
  · rename_i c v
    intro h
    refine ⟨[c], v, rfl, .inl ⟨c, rfl, ?_⟩⟩
    by_contra hc
    simp [hc] at h
  · rename_i c d v _
    intro h
    refine ⟨[c, d], v, rfl, .inr ⟨c, d, rfl, ?_⟩⟩
    by_contra hc
    simp [hc] at h
  · simp

/-- Whether the character starts no token of any other form. -/
def isStray (c : Char) : Bool :=
  !isBlank c && !startsWord c && !isDecimalDigit c && !startsOperator c &&
    c != '\'' && c != '"' && (punctuationKind? c).isNone

/-! ### Forms -/

/-- The forms of lexemes, with the text that follows. -/
inductive Lexeme.Form : Lexeme → Text → Prop where
  | lineComment {v rest : Text} : v.all (fun c => !endsLine c) = true →
      (∀ c ∈ rest.head?, endsLine c = true) → Form ⟨.comment, '-' :: '-' :: v⟩ rest
  | markedComment {v rest : Text} : markedCommentRest (v ++ rest) = v.length →
      Form ⟨.comment, '/' :: '*' :: v⟩ rest
  | string {v rest : Text} : quotedRest '\'' (v ++ rest) = v.length →
      Form ⟨.string, '\'' :: v⟩ rest
  | prefixedString {p v rest : Text} : IsLiteralPrefix p →
      quotedRest '\'' (v ++ rest) = v.length → Form ⟨.string, p ++ '\'' :: v⟩ rest
  | delimited {v rest : Text} : quotedRest '"' (v ++ rest) = v.length →
      Form ⟨.delimited, '"' :: v⟩ rest
  | number {w rest : Text} : w ≠ [] → numberReach (w ++ rest) = w.length → Form ⟨.number, w⟩ rest
  | word {c : Char} {v rest : Text} : startsWord c = true → v.all continuesWord = true →
      (∀ d ∈ rest.head?, continuesWord d = false) → literalPrefix (c :: v ++ rest) = 0 →
      Form ⟨wordKind (c :: v), c :: v⟩ rest
  | longOperator {w rest : Text} : w ∈ longOperators → Form ⟨.operator, w⟩ rest
  | operator {c : Char} {rest : Text} : isOperatorCharacter c = true →
      startsLongOperator (c :: rest) = false → commentReach (c :: rest) = 0 →
      Form ⟨.operator, [c]⟩ rest
  | punctuation {c : Char} {k : Kind} {rest : Text} : punctuationKind? c = some k →
      startsLongOperator (c :: rest) = false → numberReach (c :: rest) = 0 → Form ⟨k, [c]⟩ rest
  | unknown {c : Char} {rest : Text} : isStray c = true → Form ⟨.unknown, [c]⟩ rest

/-! ### A form is read -/

/-- What the rule that applies takes is read. -/
theorem Lexeme.readBefore_of_first {k : Kind} {w rest : Text} {r : LexicalRule} (hne : w ≠ [])
    (hfirst : first (w ++ rest) = r) (hreach : r.reach (w ++ rest) = w.length)
    (hkind : r.kind? w = some k) : ReadBefore ⟨k, w⟩ rest := by
  subst hfirst
  exact ⟨hne, hreach, hkind⟩

/-- A literal with a prefix has the prefix, a quote, and what is found of a quoted text. -/
theorem prefixedReach_append {p : Text} (hp : IsLiteralPrefix p) (t : Text) :
    prefixedReach (p ++ '\'' :: t) = (p ++ ['\'']).length + quotedRest '\'' t := by
  have hlit := literalPrefix_append hp t
  obtain ⟨n, hn⟩ := Nat.exists_eq_succ_of_ne_zero
    (Nat.pos_iff_ne_zero.mp (List.length_pos_iff.mpr hp.ne_nil))
  have hdrop : (p ++ '\'' :: t).drop (n + 1) = '\'' :: t := by
    rw [← Nat.succ_eq_add_one, ← hn, List.drop_left]
  rw [prefixedReach, hlit, hn]
  simp only [Nat.succ_eq_add_one, hdrop, quotedReach, if_true, List.length_append, hn,
    List.length_singleton]
  omega

/-- Where no operator of two characters starts, an operator is one character. -/
theorem operatorReach_eq {c : Char} {t : Text} (h : startsLongOperator (c :: t) = false) :
    operatorReach (c :: t) = if isOperatorCharacter c then 1 else 0 := by
  rw [startsLongOperator] at h
  rw [operatorReach, if_neg (by simp [h]), headReach, List.head?_cons, Option.any_some]

/-- An operator of two characters is found where it stands. -/
theorem operatorReach_append {w : Text} (hw : w ∈ longOperators) (rest : Text) :
    operatorReach (w ++ rest) = 2 := by
  have hlong : longOperators.any (·.isPrefixOf (w ++ rest)) = true :=
    List.any_eq_true.mpr ⟨w, hw, List.isPrefixOf_iff_prefix.mpr (List.prefix_append w rest)⟩
  rw [operatorReach, if_pos hlong]

/-- An operator of two characters starts no comment. -/
theorem exists_of_mem_longOperators {w : Text} (hw : w ∈ longOperators) :
    ∃ c d, w = [c, d] ∧ c ≠ '-' ∧ c ≠ '/' := by
  simp only [longOperators, List.mem_cons, List.not_mem_nil, or_false] at hw
  rcases hw with rfl | rfl | rfl | rfl | rfl | rfl | rfl <;>
    exact ⟨_, _, rfl, by decide, by decide⟩

/-- Punctuation is no operator on its own. -/
theorem not_isOperatorCharacter_of_punctuationKind? {c : Char} {k : Kind}
    (hk : punctuationKind? c = some k) : isOperatorCharacter c = false := by
  unfold punctuationKind? at hk
  split at hk <;> first | decide | simp at hk

/-- A stray character starts none of the other tokens. -/
theorem isStray_iff {c : Char} : isStray c = true ↔
    (((((isBlank c = false ∧ startsWord c = false) ∧ isDecimalDigit c = false) ∧
      startsOperator c = false) ∧ c ≠ '\'') ∧ c ≠ '"') ∧ punctuationKind? c = none := by
  simp only [isStray, Bool.and_eq_true, Bool.not_eq_true', bne_iff_ne, ne_eq,
    Option.isNone_iff_eq_none]

/-- Where a character starts no token of any other form, no other rule applies. -/
theorem first_eq_anything {c : Char} (hc : isStray c = true) (rest : Text) :
    first (c :: rest) = anything := by
  obtain ⟨⟨⟨⟨⟨⟨hblank, hword⟩, hdigit⟩, hop⟩, hquote⟩, hdouble⟩, hpunct⟩ := isStray_iff.mp hc
  have hne : ∀ d : Char, startsOperator d = true → c ≠ d := by
    rintro d hd rfl
    exact absurd (hd.symm.trans hop) (by decide)
  have hother : ∀ d : Char, startsWord d = true → c ≠ d := by
    rintro d hd rfl
    exact absurd (hd.symm.trans hword) (by decide)
  have hletter : isTypeLetter c = false := by
    cases hl : isTypeLetter c with
    | false => rfl
    | true => simpa [hword] using apply_eq_false_of_mem (p := fun d => !startsWord d) hl (by decide)
  have hdot : c ≠ '.' := by
    rintro rfl
    simp [punctuationKind?] at hpunct
  have hreach : operatorReach (c :: rest) = 0 := by
    by_contra h
    have := startsOperator_of_operatorReach_pos (Nat.pos_of_ne_zero h)
    exact absurd (this.symm.trans hop) (by decide)
  have hprefix :=
    literalPrefix_eq_zero hletter (hother 'u' (by decide)) (hother 'U' (by decide)) rest
  -- All rules before the last one take nothing.
  refine first_eq_of_order [blanks, comment, LexicalRule.string,
    LexicalRule.delimited, LexicalRule.prefixedString, LexicalRule.number, LexicalRule.word,
    LexicalRule.operator, LexicalRule.punctuation] rfl ?_ (by simp [reach])
  simp [reach, runLength, hblank, wordReach_eq_zero hword, prefixedReach_eq_zero hprefix,
    numberReach_eq_zero hdigit hdot, hreach, punctuationReach, headReach, hpunct,
    commentReach_eq_zero (hne '-' (by decide)) (hne '/' (by decide)),
    quotedReach_eq_zero hquote, quotedReach_eq_zero hdouble]

/-- A form is read where it stands. -/
theorem Lexeme.Form.readBefore {x : Lexeme} {rest : Text} (h : x.Form rest) :
    x.ReadBefore rest := by
  -- The rules before the one of the form take nothing, and this one takes the lexeme.
  cases h with
  | @lineComment v rest hv hr =>
    have hreach : runLength (fun c => !endsLine c) (v ++ rest) = v.length :=
      runLength_append_eq_length_iff.mpr ⟨hv, fun c hc => by simp [hr c hc]⟩
    refine readBefore_of_first (by simp) (first_eq_comment_of_dashes _) ?_ rfl
    simp only [List.cons_append, reach, commentReach, hreach, List.length_cons]
    omega
  | markedComment hv =>
    refine readBefore_of_first (by simp) (first_eq_comment_of_mark _) ?_ rfl
    simp only [List.cons_append, reach, commentReach, hv, List.length_cons]
    omega
  | string hv =>
    refine readBefore_of_first (by simp) (first_eq_string _) ?_ rfl
    simp only [List.cons_append, reach, quotedReach, if_true, hv, List.length_cons]
    omega
  | @prefixedString p v rest hp hv =>
    have happend : p ++ '\'' :: v ++ rest = p ++ '\'' :: (v ++ rest) := by simp
    have hlit : literalPrefix (p ++ '\'' :: v ++ rest) ≠ 0 := by
      rw [happend, literalPrefix_append hp]
      exact Nat.pos_iff_ne_zero.mp (List.length_pos_iff.mpr hp.ne_nil)
    refine readBefore_of_first (by simp) (first_eq_prefixedString hlit) ?_ rfl
    rw [happend, reach, prefixedReach_append hp, hv]
    simp only [List.length_append, List.length_cons, List.length_nil]
    omega
  | delimited hv =>
    refine readBefore_of_first (by simp) (first_eq_delimited _) ?_ rfl
    simp only [List.cons_append, reach, quotedReach, if_true, hv, List.length_cons]
    omega
  | number hne hw =>
    have hpos := List.length_pos_iff.mpr hne
    exact readBefore_of_first hne (first_eq_number (by omega)) hw rfl
  | @word c v rest hc hv hr hp =>
    have hreach := runLength_append_eq_length_iff.mpr ⟨hv, hr⟩
    refine readBefore_of_first (by simp) (first_eq_word (t := v ++ rest) hc hp) ?_ rfl
    simp only [List.cons_append, reach, wordReach, hc, if_true, hreach, List.length_cons]
    omega
  | @longOperator w rest hw =>
    obtain ⟨c, d, rfl, hc, hc'⟩ := exists_of_mem_longOperators hw
    have hreach : operatorReach (c :: d :: rest) = 2 := operatorReach_append hw rest
    have hfirst := first_eq_operator (t := d :: rest) (by omega) (commentReach_eq_zero hc hc' _)
    exact readBefore_of_first (by simp) hfirst hreach rfl
  | @operator c rest hc hl hcomment =>
    have hreach : operatorReach (c :: rest) = 1 := by rw [operatorReach_eq hl, if_pos hc]
    have hfirst := first_eq_operator (by omega) hcomment
    exact readBefore_of_first (by simp) hfirst hreach rfl
  | @punctuation c k rest hk hl hn =>
    have hreach : operatorReach (c :: rest) = 0 := by
      rw [operatorReach_eq hl, not_isOperatorCharacter_of_punctuationKind? hk, if_neg (by decide)]
    refine readBefore_of_first (by simp) (first_eq_punctuation hk hreach hn) ?_
      (by simp [kind?, hk])
    simp [reach, punctuationReach, headReach, hk]
  | @unknown c rest hc =>
    exact readBefore_of_first (by simp) (first_eq_anything hc rest) (by simp [reach]) rfl

/-! ### Nothing else is read -/

/-- A text that is split in two starts with the first part. -/
private theorem exists_of_append_eq_cons_cons {w rest t : Text} {c d : Char}
    (h : w ++ rest = c :: d :: t) (hw : 2 ≤ w.length) :
    ∃ v, w = c :: d :: v ∧ t = v ++ rest := by
  match w with
  | [] => simp at hw
  | [_] => simp at hw
  | a :: b :: v =>
    simp only [List.cons_append, List.cons.injEq] at h
    obtain ⟨rfl, rfl, rfl⟩ := h
    exact ⟨v, rfl, rfl⟩

/-- What is taken of a quoted text is a quote, and what is found behind it. -/
theorem exists_of_quotedReach {quote : Char} {w rest : Text} (hne : w ≠ [])
    (h : quotedReach quote (w ++ rest) = w.length) :
    ∃ v, w = quote :: v ∧ quotedRest quote (v ++ rest) = v.length := by
  obtain ⟨c, v, rfl⟩ := List.exists_cons_of_ne_nil hne
  simp only [List.cons_append, quotedReach, List.length_cons] at h
  split at h
  · rename_i hc
    exact ⟨v, by rw [hc], by omega⟩
  · omega

namespace Lexeme.Form

variable {w rest : Text}

/-- What the rule for comments takes has the form of a comment. -/
theorem of_commentReach (hne : w ≠ []) (h : commentReach (w ++ rest) = w.length) :
    Form ⟨.comment, w⟩ rest := by
  have hpos := List.length_pos_iff.mpr hne
  unfold commentReach at h
  split at h
  · rename_i t ht
    obtain ⟨v, rfl, rfl⟩ := exists_of_append_eq_cons_cons ht (by omega)
    simp only [List.length_cons] at h
    have hrun : runLength (fun c => !endsLine c) (v ++ rest) = v.length := by omega
    rw [runLength_append_eq_length_iff] at hrun
    exact .lineComment hrun.1 fun d hd => by simpa using hrun.2 d hd
  · rename_i t ht
    obtain ⟨v, rfl, rfl⟩ := exists_of_append_eq_cons_cons ht (by omega)
    simp only [List.length_cons] at h
    exact .markedComment (by omega)
  · omega

/-- What the rule for prefixed literals takes has the form of a string. -/
theorem of_prefixedReach (hne : w ≠ []) (h : prefixedReach (w ++ rest) = w.length) :
    Form ⟨.string, w⟩ rest := by
  have hpos := List.length_pos_iff.mpr hne
  have hlit : literalPrefix (w ++ rest) ≠ 0 := fun hzero => by
    rw [prefixedReach_eq_zero hzero] at h
    omega
  obtain ⟨p, t, ht, hp⟩ := exists_of_literalPrefix_ne_zero hlit
  rw [ht, prefixedReach_append hp] at h
  -- The lexeme has the prefix, the quote, and what was found of the rest of the literal.
  have hsplit : p ++ '\'' :: t = p ++ ['\''] ++ t := by simp
  obtain ⟨v, rfl⟩ : p ++ ['\''] <+: w :=
    List.prefix_of_prefix_length_le ⟨t, (ht.trans hsplit).symm⟩ ⟨rest, rfl⟩ (by omega)
  rw [hsplit, List.append_assoc (p ++ ['\''])] at ht
  obtain rfl : v ++ rest = t := List.append_cancel_left ht
  have hlength : (p ++ ['\''] ++ v).length = (p ++ ['\'']).length + v.length :=
    List.length_append
  rw [show p ++ ['\''] ++ v = p ++ '\'' :: v by simp]
  exact .prefixedString hp (by omega)

/-- What the rule for words takes has the form of a word, where no literal starts. -/
theorem of_wordReach (hne : w ≠ []) (h : wordReach (w ++ rest) = w.length)
    (hlit : literalPrefix (w ++ rest) = 0) : Form ⟨wordKind w, w⟩ rest := by
  obtain ⟨c, v, rfl⟩ := List.exists_cons_of_ne_nil hne
  simp only [List.cons_append, wordReach, List.length_cons] at h
  split at h
  · rename_i hc
    have hrun : runLength continuesWord (v ++ rest) = v.length := by omega
    rw [runLength_append_eq_length_iff] at hrun
    exact .word hc hrun.1 hrun.2 hlit
  · omega

/-- What the rule for operators takes has the form of one, where no comment starts. -/
theorem of_operatorReach (hne : w ≠ []) (h : operatorReach (w ++ rest) = w.length)
    (hcomment : commentReach (w ++ rest) = 0) : Form ⟨.operator, w⟩ rest := by
  obtain ⟨c, v, rfl⟩ := List.exists_cons_of_ne_nil hne
  cases hl : startsLongOperator (c :: v ++ rest) with
  | true =>
    -- The operator of two characters that comes first is what was taken.
    have hlong : (longOperators.any fun o => o.isPrefixOf (c :: v ++ rest)) = true := hl
    rw [operatorReach, if_pos hlong] at h
    obtain ⟨o, ho, hpre⟩ := List.any_eq_true.mp hlong
    obtain ⟨a, b, rfl, -⟩ := exists_of_mem_longOperators ho
    have hpre' : [a, b] <+: c :: v :=
      List.prefix_of_prefix_length_le (List.isPrefixOf_iff_prefix.mp hpre) ⟨rest, rfl⟩ (by simp [← h])
    rw [hpre'.eq_of_length h] at ho
    exact .longOperator ho
  | false =>
    rw [List.cons_append] at hl hcomment h
    rw [operatorReach_eq hl] at h
    split at h
    · rename_i hc
      obtain rfl : v = [] := List.eq_nil_of_length_eq_zero (by simpa using h.symm)
      exact .operator hc hl hcomment
    · simp at h

/-- What the rule for punctuation takes has the form of its mark, where neither an operator nor a
    number starts. -/
theorem of_punctuationReach {k : Kind} (hne : w ≠ [])
    (h : punctuationReach (w ++ rest) = w.length)
    (hk : LexicalRule.punctuation.kind? w = some k) (hop : operatorReach (w ++ rest) = 0)
    (hnumber : numberReach (w ++ rest) = 0) : Form ⟨k, w⟩ rest := by
  obtain ⟨c, v, rfl⟩ := List.exists_cons_of_ne_nil hne
  have hle : (c :: v).length ≤ 1 := by
    rw [← h, punctuationReach, headReach]
    split <;> omega
  obtain rfl : v = [] := List.eq_nil_of_length_eq_zero (by simpa using hle)
  refine .punctuation (by simpa [kind?] using hk) ?_ hnumber
  cases hl : startsLongOperator (c :: rest) with
  | false => rfl
  | true =>
    have hlong : (longOperators.any fun o => o.isPrefixOf ([c] ++ rest)) = true := hl
    rw [operatorReach, if_pos hlong] at hop
    omega

end Lexeme.Form

/-- Where no rule takes anything but the last one, a character starts no token of any other form. -/
theorem isStray_of_reach {c : Char} {rest : Text}
    (hz : ∀ q ∈ [blanks, LexicalRule.string, .delimited, .number, .word, .operator, .punctuation],
      q.reach (c :: rest) = 0) : isStray c = true := by
  simp only [List.mem_cons, List.not_mem_nil, or_false, forall_eq_or_imp, forall_eq, reach] at hz
  obtain ⟨hblank, hquote, hdouble, hnumber, hword, hop, hpunct⟩ := hz
  have hpunct' : punctuationKind? c = none := by
    by_contra h
    simp [punctuationReach, headReach, Option.isSome_iff_ne_none, h] at hpunct
  refine isStray_iff.mpr ⟨⟨⟨⟨⟨⟨?_, ?_⟩, ?_⟩, ?_⟩, ?_⟩, ?_⟩, hpunct'⟩
  · by_contra h
    rw [Bool.not_eq_false] at h
    simp [runLength, h] at hblank
  · by_contra h
    rw [Bool.not_eq_false] at h
    simp [wordReach, h] at hword
  · by_contra h
    rw [Bool.not_eq_false] at h
    have := numberReach_pos h rest
    omega
  · -- An operator character would be read as one, and the others are punctuation.
    by_contra h
    rw [Bool.not_eq_false] at h
    have hsub : "-+*/%<>!|&^~?:=".toList.all
        (fun d => isOperatorCharacter d || (punctuationKind? d).isSome) = true := by decide
    have := List.all_eq_true.mp hsub c (List.contains_iff_mem.mp h)
    simp only [hpunct', Option.isSome_none, Bool.or_false] at this
    rw [operatorReach] at hop
    split at hop
    · omega
    · simp [headReach, this] at hop
  · rintro rfl
    simp only [quotedReach, if_true] at hquote
    omega
  · rintro rfl
    simp only [quotedReach, if_true] at hdouble
    omega

/-- What is read is of one of the forms. -/
theorem Lexeme.ReadBefore.form {x : Lexeme} {rest : Text} (h : x.ReadBefore rest) :
    x.Form rest := by
  obtain ⟨k, w⟩ := x
  obtain ⟨hne, hreach, hkind⟩ := h
  simp only at hne hreach hkind
  have hu : w ++ rest ≠ [] := by simp [hne]
  -- Each rule takes what its forms are, once the rules before it are known to take nothing.
  cases hr : first (w ++ rest) with
  | blanks => simp [hr, kind?] at hkind
  | comment =>
    rw [hr] at hreach hkind
    obtain rfl := Option.some.inj hkind
    exact .of_commentReach hne hreach
  | string =>
    rw [hr] at hreach hkind
    obtain rfl := Option.some.inj hkind
    obtain ⟨v, rfl, hv⟩ := exists_of_quotedReach hne hreach
    exact .string hv
  | delimited =>
    rw [hr] at hreach hkind
    obtain rfl := Option.some.inj hkind
    obtain ⟨v, rfl, hv⟩ := exists_of_quotedReach hne hreach
    exact .delimited hv
  | prefixedString =>
    rw [hr] at hreach hkind
    obtain rfl := Option.some.inj hkind
    exact .of_prefixedReach hne hreach
  | number =>
    rw [hr] at hreach hkind
    obtain rfl := Option.some.inj hkind
    exact .number hne hreach
  | word =>
    have hprefix : prefixedReach (w ++ rest) = 0 :=
      reach_eq_zero_of_first (q := .prefixedString)
        [blanks, comment, .string, .delimited, .prefixedString, .number] hu hr rfl (by simp)
    have hlit : literalPrefix (w ++ rest) = 0 := by
      by_contra hlit
      have := prefixedReach_pos hlit
      omega
    rw [hr] at hreach hkind
    obtain rfl := Option.some.inj hkind
    exact .of_wordReach hne hreach hlit
  | operator =>
    have hcomment : commentReach (w ++ rest) = 0 :=
      reach_eq_zero_of_first (q := .comment)
        [blanks, comment, .string, .delimited, .prefixedString, .number, .word] hu hr rfl (by simp)
    rw [hr] at hreach hkind
    obtain rfl := Option.some.inj hkind
    exact .of_operatorReach hne hreach hcomment
  | punctuation =>
    have hz : ∀ q ∈ [LexicalRule.number, .operator], q.reach (w ++ rest) = 0 := fun q hq =>
      reach_eq_zero_of_first
        [blanks, comment, .string, .delimited, .prefixedString, .number, .word,
          .operator] hu hr rfl (by simp at hq ⊢; tauto)
    rw [hr] at hreach hkind
    exact .of_punctuationReach hne hreach hkind (hz .operator (by simp)) (hz .number (by simp))
  | anything =>
    have hz : ∀ q ∈ [blanks, LexicalRule.string, .delimited, .number, .word, .operator,
        .punctuation], q.reach (w ++ rest) = 0 := fun q hq =>
      reach_eq_zero_of_first
        [blanks, comment, .string, .delimited, .prefixedString, .number, .word,
          .operator, .punctuation] hu hr rfl (by simp at hq ⊢; tauto)
    rw [hr] at hreach hkind
    obtain rfl := Option.some.inj hkind
    obtain ⟨c, v, rfl⟩ := List.exists_cons_of_ne_nil hne
    obtain rfl : v = [] := by
      simp only [reach, List.cons_append, List.length_cons] at hreach
      exact List.eq_nil_of_length_eq_zero (by omega)
    exact .unknown (isStray_of_reach hz)

/-- A lexeme is read in front of a text exactly when it is of one of the forms there. -/
theorem readBefore_iff_form {x : Lexeme} {rest : Text} : x.ReadBefore rest ↔ x.Form rest :=
  ⟨Lexeme.ReadBefore.form, Lexeme.Form.readBefore⟩

end SqlScript
