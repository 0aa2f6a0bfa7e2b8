import SqlScript.Proofs.Token.Boundary

namespace SqlScript

open Unicode

/-!
# The ends of lexemes

* `Lexeme.ReadBefore.not_isBlank_of_mem_head?` — no lexeme starts with a blank;
* `Lexeme.ReadBefore.not_isBlank_of_mem_getLast?` — only a comment up to the end of its line, or a
  lexeme that is not closed, ends with one.
-/

/-! ### Quoted texts and comments -/

/-- A quoted text that is closed ends with its quote. -/
theorem getLast?_of_quotedRest {quote : Char} {v rest : Text}
    (h : quotedRest quote (v ++ rest) = v.length) (hclosed : quoteStaysOpen quote v = false) :
    v.getLast? = some quote := by
  fun_induction quoteStaysOpen quote v with
  | case1 => exact absurd hclosed (by decide)
  | case2 c => simpa using hclosed
  | case3 c d v hc ih =>
    rw [List.getLast?_cons_cons]
    simp only [List.cons_append, quotedRest_cons_of_ne hc, List.length_cons] at h ih
    exact ih (by omega) hclosed
  | case4 c v hc ih =>
    obtain rfl : c = quote := by simpa using hc
    simp only [List.cons_append, quotedRest, ne_eq, not_true_eq_false, if_false, if_true,
      List.length_cons] at h
    have hlast := ih (by omega) hclosed
    obtain ⟨u, rfl⟩ := List.getLast?_eq_some_iff.mp hlast
    rw [← List.cons_append, ← List.cons_append, List.getLast?_concat]
  | case5 c d v hc hd =>
    obtain rfl : c = quote := by simpa using hc
    simp [quotedRest, hd] at h

/-- The two characters that close a comment between marks. -/
def Text.closingMark : Text := ['*', '/']

/-- A comment between marks that is closed ends with the first closing mark in it. -/
theorem exists_of_markedCommentRest {v rest : Text}
    (h : markedCommentRest (v ++ rest) = v.length) (hclosed : commentStaysOpen v = false) :
    ∃ u, v = u ++ Text.closingMark ∧
      ∀ a b, v = a ++ Text.closingMark ++ b → b = [] := by
  fun_induction commentStaysOpen v with
  | case1 => exact absurd hclosed (by decide)
  | case2 v =>
    simp only [List.cons_append, markedCommentRest, List.length_cons] at h
    obtain rfl : v = [] := List.eq_nil_of_length_eq_zero (by omega)
    refine ⟨[], rfl, fun a b hab => List.eq_nil_of_length_eq_zero ?_⟩
    have hlength := congrArg List.length hab
    simp only [Text.closingMark, List.length_append, List.length_cons, List.length_nil] at hlength
    omega
  | case3 c v hc ih =>
    -- The comment does not start with a closing mark, so that the marks in it come later.
    obtain ⟨d, v, rfl⟩ : ∃ d v', v = d :: v' := by
      refine List.exists_cons_of_ne_nil ?_
      rintro rfl
      exact absurd hclosed (by decide)
    have hmark : ¬(c = '*' ∧ d = '/') := fun h => hc v h.1 (by rw [h.2])
    rw [List.cons_append, List.cons_append, markedCommentRest_cons_cons hmark, List.length_cons,
      ← List.cons_append] at h
    obtain ⟨u, hu, hlast⟩ := ih (by omega) hclosed
    refine ⟨c :: u, by rw [hu]; rfl, fun a b hab => ?_⟩
    cases a with
    | nil =>
      obtain ⟨rfl, hd⟩ := List.cons.inj hab
      exact absurd ⟨rfl, (List.cons.inj hd).1⟩ hmark
    | cons e a => exact hlast a b (List.cons.inj hab).2

/-- A comment between marks that is closed ends with its mark. -/
theorem getLast?_of_markedCommentRest {v rest : Text}
    (h : markedCommentRest (v ++ rest) = v.length) (hclosed : commentStaysOpen v = false) :
    v.getLast? = some '/' := by
  obtain ⟨u, rfl, -⟩ := exists_of_markedCommentRest h hclosed
  simp [Text.closingMark]

/-! ### Numbers -/

/-- The characters that numbers are written with. -/
def isNumberCharacter (c : Char) : Bool := isDecimalDigit c || ".eE+-".toList.contains c

/-- No character of numbers is blank. -/
theorem not_isBlank_of_isNumberCharacter {c : Char} (h : isNumberCharacter c = true) :
    isBlank c = false := by
  rw [isNumberCharacter, Bool.or_eq_true] at h
  rcases h with h | h
  · exact not_isBlank_of_isDecimalDigit h
  · exact apply_eq_false_of_mem h (by decide)

/-- A run is of characters that pass the test. -/
theorem all_take_runLength (p : Char → Bool) (t : Text) : (t.take (runLength p t)).all p = true := by
  have htake : t.take (runLength p t) = t.takeWhile p :=
    (List.prefix_iff_eq_take.mp (List.takeWhile_prefix p)).symm
  rw [htake]
  exact List.all_takeWhile

/-- One character in front is one that passes the test. -/
theorem all_take_headReach {p q : Char → Bool} (h : ∀ c, p c = true → q c = true) (t : Text) :
    (t.take (headReach p t)).all q = true := by
  unfold headReach
  cases t with
  | nil => simp
  | cons c t =>
    by_cases hc : p c = true
    · simp [hc, h c hc]
    · simp [hc]

/-- Digits are written with what numbers are written with. -/
theorem all_take_digitsReach (t : Text) :
    (t.take (digitsReach t)).all isNumberCharacter = true := by
  refine List.all_eq_true.mpr fun c hc => ?_
  have := List.all_eq_true.mp (all_take_runLength isDecimalDigit t) c hc
  rw [isNumberCharacter, this, Bool.true_or]

/-- A fraction is of characters of numbers. -/
theorem all_take_fractionReach (t : Text) :
    (t.take (fractionReach t)).all isNumberCharacter = true := by
  unfold fractionReach
  split
  · rename_i rest
    rw [Nat.add_comm, List.take_succ_cons, List.all_cons, all_take_digitsReach]
    decide
  · simp

/-- An exponent is of characters of numbers. -/
theorem all_take_exponentReach (t : Text) :
    (t.take (exponentReach t)).all isNumberCharacter = true := by
  unfold exponentReach
  split
  · simp
  · rename_i e rest
    simp only
    split
    · rename_i hcond
      have he : isNumberCharacter e = true := by
        rcases hcond.1 with rfl | rfl <;> decide
      have hsign := all_take_headReach (p := fun c => c == '+' || c == '-')
        (q := isNumberCharacter) (fun c hc => by
          rw [Bool.or_eq_true, beq_iff_eq, beq_iff_eq] at hc
          rcases hc with rfl | rfl <;> decide) rest
      rw [Nat.add_assoc, Nat.add_comm 1, List.take_succ_cons, List.all_cons, he, Bool.true_and,
        List.take_add, List.all_append, hsign, all_take_digitsReach]
      rfl
    · simp

/-- A number is written with what numbers are written with. -/
theorem all_take_numberReach (t : Text) :
    (t.take (numberReach t)).all isNumberCharacter = true := by
  unfold numberReach
  extract_lets whole fraction
  split
  · simp
  · rw [List.take_add, List.take_add, List.all_append, List.all_append, all_take_digitsReach,
      all_take_fractionReach, all_take_exponentReach]
    rfl

/-! ### Lexemes -/

/-- No lexeme starts with a blank. -/
theorem Lexeme.ReadBefore.not_isBlank_of_mem_head? {x : Lexeme} {rest : Text}
    (h : x.ReadBefore rest) : ∀ c ∈ x.text.head?, isBlank c = false := by
  intro c hc
  obtain ⟨v, hv⟩ := List.head?_eq_some_iff.mp hc
  obtain ⟨-, -, hkind⟩ := h
  by_contra hblank
  rw [Bool.not_eq_false] at hblank
  rw [hv, List.cons_append, LexicalRule.first_eq_blanks_iff.mpr hblank] at hkind
  simp [LexicalRule.kind?] at hkind

/-- No lexeme is blank. -/
theorem Lexeme.ReadBefore.not_isBlank {x : Lexeme} {rest : Text} (h : x.ReadBefore rest) :
    Text.isBlank x.text = false := by
  obtain ⟨d, v, hv⟩ := List.exists_cons_of_ne_nil h.1
  have hd := h.not_isBlank_of_mem_head? d (by simp [hv])
  rw [hv, Text.isBlank, List.all_cons, hd, Bool.false_and]

/-- A text ends with no blank where the last part of it ends with a character that is none. -/
theorem not_isBlank_of_mem_getLast?_append {w : Text} {d : Char} (p : Text)
    (hw : w.getLast? = some d) (hd : isBlank d = false) :
    ∀ c ∈ (p ++ w).getLast?, isBlank c = false := by
  obtain ⟨u, rfl⟩ := List.getLast?_eq_some_iff.mp hw
  rw [← List.append_assoc, List.getLast?_concat]
  intro c hc
  obtain rfl : d = c := by simpa using hc
  exact hd

/-- A lexeme that is closed ends with no blank, unless it is a comment up to the end of its line. -/
theorem Lexeme.ReadBefore.not_isBlank_of_mem_getLast? {x : Lexeme} {rest : Text}
    (h : x.ReadBefore rest) (ho : x.isOpen = false) (hl : x.isLineComment = false) :
    ∀ c ∈ x.text.getLast?, isBlank c = false := by
  have hsingle : ∀ d : Char, isBlank d = false →
      ∀ c ∈ ([d] : Text).getLast?, isBlank c = false :=
    fun d hd => not_isBlank_of_mem_getLast?_append [] rfl hd
  cases h.form with
  | lineComment => simp [isLineComment_dashes] at hl
  | @markedComment v rest hv =>
    rw [isOpen_mark] at ho
    exact not_isBlank_of_mem_getLast?_append ['/', '*']
      (getLast?_of_markedCommentRest hv ho) (by decide)
  | @string v rest hv =>
    rw [isOpen_string] at ho
    exact not_isBlank_of_mem_getLast?_append ['\''] (getLast?_of_quotedRest hv ho) (by decide)
  | @prefixedString p v rest hp hv =>
    rw [isOpen_prefixedString hp] at ho
    rw [List.append_cons]
    exact not_isBlank_of_mem_getLast?_append _ (getLast?_of_quotedRest hv ho) (by decide)
  | @delimited v rest hv =>
    rw [isOpen_delimited] at ho
    exact not_isBlank_of_mem_getLast?_append ['"'] (getLast?_of_quotedRest hv ho) (by decide)
  | @number w rest hne hw =>
    intro c hc
    have hall := all_take_numberReach (w ++ rest)
    rw [hw, List.take_left] at hall
    exact not_isBlank_of_isNumberCharacter
      (List.all_eq_true.mp hall c (List.mem_of_getLast? hc))
  | @word d v rest hd hv =>
    intro c hc
    rcases List.mem_cons.mp (List.mem_of_getLast? hc) with rfl | hmem
    · exact not_isBlank_of_continuesWord (continuesWord_of_startsWord hd)
    · exact not_isBlank_of_continuesWord (List.all_eq_true.mp hv c hmem)
  | @longOperator w rest hw =>
    intro c hc
    have hall : longOperators.all (fun o => o.all fun d => !isBlank d) = true := by decide
    have := List.all_eq_true.mp (List.all_eq_true.mp hall w hw) c (List.mem_of_getLast? hc)
    simpa using this
  | operator hd => exact hsingle _ (apply_eq_false_of_mem hd (by decide))
  | @punctuation d k rest hk =>
    refine hsingle _ ?_
    rw [punctuationKind?_eq_some_iff] at hk
    cases k <;> simp only [Kind.mark?, Option.some.injEq, reduceCtorEq] at hk <;> subst hk <;>
      decide
  | @unknown d rest hd =>
    simp only [isStray, Bool.and_eq_true, Bool.not_eq_true'] at hd
    exact hsingle _ hd.1.1.1.1.1.1

end SqlScript
