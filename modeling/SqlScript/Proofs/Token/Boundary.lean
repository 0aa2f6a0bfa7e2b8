import SqlScript.Proofs.Token.Form

namespace SqlScript

open Unicode

/-!
# The character behind a lexeme

Whether a lexeme is still read as itself depends on no more than the character that comes next.

* `Lexeme.isOpen` — whether a literal, a delimited name or a comment is not closed, so that it goes
  on to the end of the text;
* `Lexeme.admits` — the characters that can come next;
* `Lexeme.ReadBefore.of_admits` — in front of such a character a lexeme is read as itself;
* `Lexeme.ReadBefore.admits` — and in front of no other one, where a boundary comes next or a mark
  is read;
* `Lexeme.Form.text_of_mark?` — the marks are the kinds of which all lexemes have the same text.
-/

/-! ### Marks -/

/-- The character that tokens of the kind are written with, where there is but one. -/
def Kind.mark? : Kind → Option Char
  | .openParen => some '('
  | .closeParen => some ')'
  | .comma => some ','
  | .dot => some '.'
  | .colon => some ':'
  | .equals => some '='
  | .semicolon => some ';'
  | _ => none

/-- A punctuation character is the mark of its kind. -/
theorem punctuationKind?_eq_some_iff {c : Char} {k : Kind} :
    punctuationKind? c = some k ↔ k.mark? = some c := by
  constructor
  · intro h
    unfold punctuationKind? at h
    split at h <;> first | (obtain rfl := Option.some.inj h; rfl) | simp at h
  · intro h
    cases k <;> simp only [Kind.mark?, Option.some.injEq, reduceCtorEq] at h <;> subst h <;> rfl

/-- Words are no marks. -/
theorem mark?_wordKind (t : Text) : (LexicalRule.wordKind t).mark? = none := by
  unfold LexicalRule.wordKind
  simp only
  split
  · rfl
  · split <;> rfl

/-- A mark is written as such. -/
theorem Lexeme.Form.text_of_mark? {x : Lexeme} {rest : Text} (h : x.Form rest) {c : Char}
    (hc : x.kind.mark? = some c) : x.text = [c] := by
  cases h with
  | word => simp [mark?_wordKind] at hc
  | @punctuation d k rest hk =>
    rw [punctuationKind?_eq_some_iff] at hk
    rw [Option.some.inj (hk.symm.trans hc)]
  | _ => simp [Kind.mark?] at hc

/-! ### What a lexeme admits -/

namespace Lexeme

/-- Whether the lexeme is a comment that ends with its line. -/
def isLineComment (x : Lexeme) : Bool :=
  x.kind == .comment && Token.lineCommentMark.isPrefixOf x.text

/-- Whether the lexeme is a string literal, a delimited name or a comment between marks that is not
    closed. -/
def isOpen (x : Lexeme) : Bool :=
  match x.kind with
  | .comment => !x.isLineComment && commentStaysOpen (x.text.drop 2)
  | .string => quoteStaysOpen '\'' (x.text.dropWhile (· != '\'')).tail
  | .delimited => quoteStaysOpen '"' x.text.tail
  | _ => false

/-- Whether the lexeme is read as itself in front of the character. -/
def admits (x : Lexeme) (c : Char) : Bool :=
  match x.kind with
  | .comment => if x.isLineComment then endsLine c else !x.isOpen
  | .string => !x.isOpen && c != '\''
  | .delimited => !x.isOpen && c != '"'
  | .number => isBoundary c && !(x.text.all isDecimalDigit && c == '.')
  | .dot => !isDecimalDigit c
  | .colon => c != ':'
  | .equals => c != '>'
  | .verb | .clause | .word | .operator => isBoundary c
  | .comma | .semicolon | .openParen | .closeParen | .unknown => true

end Lexeme

/-! ### Parts of the proof -/

/-- What starts with two dashes is a comment up to the end of its line. -/
theorem isLineComment_dashes (v : Text) : Lexeme.isLineComment ⟨.comment, '-' :: '-' :: v⟩ = true :=
  rfl

/-- What starts with `/*` is not. -/
theorem isLineComment_mark (v : Text) :
    Lexeme.isLineComment ⟨.comment, '/' :: '*' :: v⟩ = false := rfl

/-- A comment that ends with its line starts with two dashes. -/
theorem Lexeme.exists_of_isLineComment {x : Lexeme} (h : x.isLineComment = true) :
    ∃ v, x = ⟨.comment, '-' :: '-' :: v⟩ := by
  obtain ⟨k, w⟩ := x
  simp only [isLineComment, Bool.and_eq_true, beq_iff_eq, List.isPrefixOf_iff_prefix] at h
  obtain ⟨rfl, v, hv⟩ := h
  exact ⟨v, by rw [← hv]; rfl⟩

/-- A comment that ends with its line is in one line. -/
theorem Lexeme.Form.not_endsLine_of_isLineComment {x : Lexeme} {rest : Text} (h : x.Form rest)
    (hl : x.isLineComment = true) : x.text.all (fun c => !endsLine c) = true := by
  cases h with
  | lineComment hv => simpa [endsLine] using hv
  | markedComment => exact absurd (hl.symm.trans (isLineComment_mark _)) (by decide)
  | @punctuation c k _ hk =>
    rw [punctuationKind?_eq_some_iff] at hk
    cases k <;> simp [Kind.mark?, isLineComment] at hk hl
  | @word c v _ hc =>
    obtain ⟨u, hu⟩ := exists_of_isLineComment hl
    obtain rfl : c = '-' := (List.cons.inj (Lexeme.mk.inj hu).2).1
    exact absurd hc (by decide)
  | _ => simp [isLineComment] at hl

/-- What opens a literal is not part of what it quotes. -/
theorem dropWhile_literalPrefix {p : Text} (hp : IsLiteralPrefix p) (v : Text) :
    (p ++ '\'' :: v).dropWhile (· != '\'') = '\'' :: v := by
  rcases hp with ⟨c, rfl, hc⟩ | ⟨c, d, rfl, hc, hd⟩
  · have hne : c ≠ '\'' := by
      rintro rfl
      exact absurd hc (by decide)
    simp [hne]
  · rcases hc with rfl | rfl <;> rcases hd with rfl | rfl <;> simp

/-- Behind a word of any kind stands what is no part of words. -/
theorem admits_wordKind (t : Text) (c : Char) :
    Lexeme.admits ⟨LexicalRule.wordKind t, t⟩ c = isBoundary c := by
  unfold LexicalRule.wordKind
  simp only
  split
  · rfl
  · split <;> rfl

/-- A `--` comment is never open: it ends with its line. -/
theorem isOpen_dashes (v : Text) : Lexeme.isOpen ⟨.comment, '-' :: '-' :: v⟩ = false := rfl

/-- A `/*` comment is open until its `*/`. -/
theorem isOpen_mark (v : Text) :
    Lexeme.isOpen ⟨.comment, '/' :: '*' :: v⟩ = commentStaysOpen v := rfl

/-- A string is open until its quote. -/
theorem isOpen_string (v : Text) :
    Lexeme.isOpen ⟨.string, '\'' :: v⟩ = quoteStaysOpen '\'' v := by
  simp [Lexeme.isOpen]

/-- A string with a prefix is open until its quote. -/
theorem isOpen_prefixedString {p : Text} (hp : IsLiteralPrefix p) (v : Text) :
    Lexeme.isOpen ⟨.string, p ++ '\'' :: v⟩ = quoteStaysOpen '\'' v := by
  simp [Lexeme.isOpen, dropWhile_literalPrefix hp]

/-- A delimited name is open until its quote. -/
theorem isOpen_delimited (v : Text) :
    Lexeme.isOpen ⟨.delimited, '"' :: v⟩ = quoteStaysOpen '"' v := rfl

/-- A word is never open. -/
theorem isOpen_wordKind (t : Text) : Lexeme.isOpen ⟨LexicalRule.wordKind t, t⟩ = false := by
  unfold LexicalRule.wordKind
  simp only
  split
  · rfl
  · split <;> rfl

/-- No word is the prefix of a literal in front of a boundary. -/
theorem literalPrefix_word {c : Char} {v rest : Text} (hc : startsWord c = true)
    (hv : v.all continuesWord = true) (hrest : ∀ d ∈ rest.head?, isBoundary d = true) :
    literalPrefix (c :: v ++ rest) = 0 := by
  by_contra h
  obtain ⟨p, t, ht, hp⟩ := exists_of_literalPrefix_ne_zero h
  have hword : ∀ d ∈ c :: v, continuesWord d = true := by
    intro d hd
    rcases List.mem_cons.mp hd with rfl | hd
    · exact continuesWord_of_startsWord hc
    · exact List.all_eq_true.mp hv d hd
  have hletters : ∀ d ∈ p, isBoundary d = false := by
    intro d hd
    rcases hp with ⟨e, rfl, he⟩ | ⟨e, f, rfl, he, hf⟩
    · obtain rfl := List.mem_singleton.mp hd
      have := apply_eq_false_of_mem (p := isBoundary) he (by decide)
      exact this
    · rcases List.mem_cons.mp hd with rfl | hd
      · rcases he with rfl | rfl <;> decide
      · obtain rfl := List.mem_singleton.mp hd
        rcases hf with rfl | rfl <;> decide
  have hquote : isBoundary '\'' = false := by decide
  rcases List.append_eq_append_iff.mp ht with ⟨m, hm, hrest'⟩ | ⟨m, hm, ht'⟩
  · -- The prefix reaches as far as the word at least.
    cases m with
    | nil =>
      rw [List.nil_append] at hrest'
      have := hrest '\'' (by simp [hrest'])
      exact absurd (this.symm.trans hquote) (by decide)
    | cons d m =>
      have := hrest d (by simp [hrest'])
      have hd := hletters d (by simp [hm])
      exact absurd (this.symm.trans hd) (by decide)
  · cases m with
    | nil =>
      rw [List.nil_append] at ht'
      have := hrest '\'' (by simp [← ht'])
      exact absurd (this.symm.trans hquote) (by decide)
    | cons d m =>
      obtain ⟨rfl, -⟩ := List.cons_eq_cons.mp ht'
      have := hword '\'' (by rw [hm]; simp)
      exact absurd this (by decide)

/-- An operator of one character stays one in front of a boundary. -/
theorem not_startsLongOperator_of_isBoundary {c : Char} {rest : Text}
    (hc : isOperatorCharacter c = true) (hrest : ∀ d ∈ rest.head?, isBoundary d = true) :
    startsLongOperator (c :: rest) = false := by
  cases rest with
  | nil =>
    simp [startsLongOperator, longOperators, List.isPrefixOf]
  | cons d rest =>
    have hd := hrest d (by simp)
    have h1 : d ≠ '>' := ne_of_apply_eq_true hd (by decide)
    have h2 : d ≠ '=' := ne_of_apply_eq_true hd (by decide)
    have h3 : d ≠ '|' := ne_of_apply_eq_true hd (by decide)
    have h4 : c ≠ ':' := ne_of_apply_eq_true hc (by decide)
    simp [startsLongOperator, longOperators, List.isPrefixOf, h1.symm, h2.symm, h3.symm, h4.symm]

/-- An operator of one character starts no comment in front of a boundary. -/
theorem commentReach_of_isBoundary {c : Char} {rest : Text}
    (hrest : ∀ d ∈ rest.head?, isBoundary d = true) : commentReach (c :: rest) = 0 := by
  cases rest with
  | nil => simp [commentReach]
  | cons d rest =>
    have hd := hrest d (by simp)
    have h1 : d ≠ '-' := ne_of_apply_eq_true hd (by decide)
    have h2 : d ≠ '*' := ne_of_apply_eq_true hd (by decide)
    simp [commentReach, h1, h2]

/-- Of the marks, the colon and the equals sign start an operator, in front of one character
    each. -/
theorem startsLongOperator_mark {c : Char} {k : Kind} (hk : punctuationKind? c = some k)
    (rest : Text) :
    startsLongOperator (c :: rest)
      = ((k == .colon && rest.head? == some ':') || (k == .equals && rest.head? == some '>')) := by
  rw [punctuationKind?_eq_some_iff] at hk
  cases k <;> simp only [Kind.mark?, Option.some.injEq, reduceCtorEq] at hk <;> subst hk <;>
    cases rest <;> simp [startsLongOperator, longOperators, List.isPrefixOf, Bool.beq_comm]

/-- Of the marks, the dot starts a number, in front of a digit. -/
theorem numberReach_mark {c : Char} {k : Kind} (hk : punctuationKind? c = some k) (rest : Text) :
    numberReach (c :: rest) = 0 ↔ (k = .dot → ∀ d ∈ rest.head?, isDecimalDigit d = false) := by
  rw [punctuationKind?_eq_some_iff] at hk
  by_cases hdot : k = .dot
  · subst hdot
    obtain rfl : '.' = c := by simpa [Kind.mark?] using hk
    have hwhole : digitsReach ('.' :: rest) = 0 :=
      digitsReach_eq_zero (fun d hd => by
        obtain rfl : '.' = d := by simpa using hd
        decide)
    simp only [numberReach, hwhole, List.drop_zero, fractionReach, true_and, forall_const]
    rw [← runLength_eq_zero_iff]
    change _ ↔ digitsReach rest = 0
    constructor
    · intro h
      by_contra hne
      rw [if_neg (by omega)] at h
      omega
    · intro h
      rw [if_pos (by omega)]
  · have hc : c ≠ '.' := by
      rintro rfl
      have : punctuationKind? '.' = some k := punctuationKind?_eq_some_iff.mpr hk
      exact hdot (Option.some.inj this).symm
    have hd : isDecimalDigit c = false := by
      cases k <;> simp only [Kind.mark?, Option.some.injEq, reduceCtorEq] at hk <;> subst hk <;>
        decide
    simp [numberReach_eq_zero hd hc, hdot]

/-! ### The character that comes next -/

/-- A quoted text without a closing quote takes all of the text. -/
theorem eq_nil_of_quotedRest {quote : Char} {v rest : Text}
    (h : quotedRest quote (v ++ rest) = v.length) (ho : quoteStaysOpen quote v = true) :
    rest = [] := by
  have hrest := (quotedRest_append_iff h).mp h
  rwa [if_pos ho] at hrest

/-- A quoted text that is closed ends in front of everything but its quote. -/
theorem quotedRest_of_head? {quote : Char} {v rest rest' : Text}
    (h : quotedRest quote (v ++ rest) = v.length)
    (hrest' : ∀ c ∈ rest'.head?, quoteStaysOpen quote v = false ∧ c ≠ quote) :
    quotedRest quote (v ++ rest') = v.length := by
  refine (quotedRest_append_iff h).mpr ?_
  cases rest' with
  | nil => simp
  | cons c rest' =>
    obtain ⟨ho, hc⟩ := hrest' c rfl
    simpa [ho] using hc

/-- An open lexeme takes all of the text. -/
theorem Lexeme.ReadBefore.eq_nil_of_isOpen {x : Lexeme} {rest : Text} (h : x.ReadBefore rest)
    (ho : x.isOpen = true) : rest = [] := by
  cases h.form with
  | lineComment => simp [isOpen_dashes] at ho
  | markedComment hv => exact (markedCommentRest_append_iff hv).mp hv (isOpen_mark _ ▸ ho)
  | string hv => exact eq_nil_of_quotedRest hv (isOpen_string _ ▸ ho)
  | prefixedString hp hv => exact eq_nil_of_quotedRest hv (isOpen_prefixedString hp _ ▸ ho)
  | delimited hv => exact eq_nil_of_quotedRest hv (isOpen_delimited _ ▸ ho)
  | word => simp [isOpen_wordKind] at ho
  | @punctuation c k rest hk =>
    rw [punctuationKind?_eq_some_iff] at hk
    cases k <;> simp_all [Kind.mark?, isOpen]
  | _ => simp [isOpen] at ho

/-- Only the last token of a text can be open. -/
theorem Token.eq_nil_of_isOpen {t : Text} {before after : List Token} {u : Token}
    (hsplit : scan t = before ++ u :: after) (ho : u.lexeme.isOpen = true) : after = [] := by
  obtain ⟨rest, place, -, hread, hafter⟩ := Text.scan_split hsplit
  rw [hafter, hread.eq_nil_of_isOpen ho]
  rfl

/-- A lexeme is read as itself in front of every character that it admits. -/
theorem Lexeme.ReadBefore.of_admits {x : Lexeme} {rest rest' : Text} (h : x.ReadBefore rest)
    (hadmits : ∀ c ∈ rest'.head?, x.admits c = true) : x.ReadBefore rest' := by
  apply Form.readBefore
  -- What a lexeme admits is what its form asks of the text behind it.
  cases h.form with
  | lineComment hv =>
    exact .lineComment hv fun c hc => by simpa [admits, isLineComment_dashes] using hadmits c hc
  | markedComment hv =>
    refine .markedComment ((markedCommentRest_append_iff hv).mpr fun ho => ?_)
    cases rest' with
    | nil => rfl
    | cons c rest' =>
      have := hadmits c (by simp)
      simp [admits, isOpen_mark, isLineComment_mark, ho] at this
  | string hv =>
    exact .string (quotedRest_of_head? hv fun c hc => by
      simpa [admits, isOpen_string] using hadmits c hc)
  | prefixedString hp hv =>
    exact .prefixedString hp (quotedRest_of_head? hv fun c hc => by
      simpa [admits, isOpen_prefixedString hp] using hadmits c hc)
  | delimited hv =>
    exact .delimited (quotedRest_of_head? hv fun c hc => by
      simpa [admits, isOpen_delimited] using hadmits c hc)
  | @number w rest hne hw =>
    simp only [admits, Bool.and_eq_true, Bool.not_eq_true', Bool.and_eq_false_imp,
      beq_eq_false_iff_ne, ne_eq] at hadmits
    refine .number hne ((numberReach_append_iff hw hne fun c hc => (hadmits c hc).1).mpr ?_)
    rintro ⟨hall, hdot⟩
    exact (hadmits '.' hdot).2 hall rfl
  | word hc hv =>
    have hboundary : ∀ d ∈ rest'.head?, isBoundary d = true := fun d hd => by
      simpa [admits_wordKind] using hadmits d hd
    exact .word hc hv (fun d hd => not_continuesWord_of_isBoundary (hboundary d hd))
      (literalPrefix_word hc hv hboundary)
  | longOperator hw => exact .longOperator hw
  | operator hc =>
    have hboundary : ∀ d ∈ rest'.head?, isBoundary d = true := hadmits
    exact .operator hc (not_startsLongOperator_of_isBoundary hc hboundary)
      (commentReach_of_isBoundary hboundary)
  | @punctuation c k rest hk =>
    refine .punctuation hk ?_ ((numberReach_mark hk rest').mpr ?_)
    · rw [startsLongOperator_mark hk]
      cases rest' with
      | nil => simp
      | cons d rest' =>
        have := hadmits d (by simp)
        cases k <;> simp_all [admits]
    · rintro rfl d hd
      simpa [admits] using hadmits d hd
  | unknown hc => exact .unknown hc

/-- A lexeme that is read as itself in front of a boundary admits it, and a mark admits whatever it
    is read in front of. -/
theorem Lexeme.ReadBefore.admits {x : Lexeme} {c : Char} {rest : Text}
    (h : x.ReadBefore (c :: rest)) (hc : isBoundary c = true ∨ x.kind.mark?.isSome = true) :
    x.admits c = true := by
  have hopen : x.isOpen = false := by
    by_contra ho
    rw [Bool.not_eq_false] at ho
    exact absurd (h.eq_nil_of_isOpen ho) (by simp)
  have hquote : ∀ q : Char, isBoundary q = false → isBoundary c = true → c ≠ q :=
    fun q hq hc' => ne_of_apply_eq_true hc' hq
  cases h.form with
  | lineComment hv hr => simpa [Lexeme.admits, isLineComment_dashes] using hr c (by simp)
  | markedComment => simpa [Lexeme.admits, isLineComment_mark] using hopen
  | string =>
    have := hquote '\'' (by decide) (by simpa [Kind.mark?] using hc)
    simp [Lexeme.admits, hopen, this]
  | prefixedString =>
    have := hquote '\'' (by decide) (by simpa [Kind.mark?] using hc)
    simp [Lexeme.admits, hopen, this]
  | delimited =>
    have := hquote '"' (by decide) (by simpa [Kind.mark?] using hc)
    simp [Lexeme.admits, hopen, this]
  | number hne hw =>
    have hc' : isBoundary c = true := by simpa [Kind.mark?] using hc
    have hdot := (numberReach_append_iff hw hne (by simpa using hc')).mp hw
    simp only [Lexeme.admits, hc', Bool.true_and, Bool.not_eq_true', Bool.and_eq_false_imp,
      beq_eq_false_iff_ne, ne_eq]
    rintro hall rfl
    exact hdot ⟨hall, rfl⟩
  | word =>
    rw [admits_wordKind]
    simpa [mark?_wordKind] using hc
  | longOperator => simpa [Lexeme.admits, Kind.mark?] using hc
  | operator => simpa [Lexeme.admits, Kind.mark?] using hc
  | @punctuation d k rest hk hl hn =>
    rw [startsLongOperator_mark hk] at hl
    rw [numberReach_mark hk] at hn
    rw [punctuationKind?_eq_some_iff] at hk
    cases k <;> simp_all [Lexeme.admits, Kind.mark?]
  | unknown => rfl

/-- What is read somewhere is read when it stands alone. -/
theorem Lexeme.ReadBefore.proper {x : Lexeme} {rest : Text} (h : x.ReadBefore rest) : x.Proper :=
  h.of_admits (by simp)

end SqlScript
