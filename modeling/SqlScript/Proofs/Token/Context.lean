import SqlScript.Proofs.Token.Ending

namespace SqlScript

/-!
# Lexemes in other surroundings

What is read at a place does not depend on the text far behind it. A lexeme stays as it is when the
text is cut off somewhere behind it, and when what comes after the next semicolon is replaced.

* `Text.Resembles` — whether whatever is read in front of a text is read in front of another one;
* `Lexeme.ReadBefore.of_resembles` — and so it is;
* `numberReach_take` and `numberReach_append_semicolon` — a number is found in the text up to its
  end, and does not reach over a semicolon;
* `Lexeme.ReadBefore.of_append` and `Lexeme.ReadBefore.of_semicolon` — the two cases.
-/

/-! ### What lexemes ask of the text behind them -/

/-- Whether the second text starts like the first one, as far as lexemes in front of it are
    concerned. -/
structure Text.Resembles (rest rest' : Text) : Prop where
  head? : ∀ c ∈ rest'.head?, rest.head? = some c
  numberReach : ∀ w, numberReach (w ++ rest) ≤ w.length →
    numberReach (w ++ rest') = numberReach (w ++ rest)
  literalPrefix : ∀ w, literalPrefix (w ++ rest) = 0 → literalPrefix (w ++ rest') = 0

/-- Only an empty text starts like an empty one. -/
theorem Text.Resembles.eq_nil {rest rest' : Text} (h : Resembles rest rest') (hrest : rest = []) :
    rest' = [] := by
  subst hrest
  cases rest' with
  | nil => rfl
  | cons c rest' => exact absurd (h.head? c rfl) (by simp)

/-- A text that starts as another one does is empty, or has its first character. -/
theorem Text.exists_head_of_head? {rest rest' : Text}
    (hhead : ∀ d ∈ rest'.head?, rest.head? = some d) :
    rest' = [] ∨ ∃ d more more', rest = d :: more ∧ rest' = d :: more' := by
  cases rest' with
  | nil => exact .inl rfl
  | cons d more' =>
    obtain ⟨more, hmore⟩ := List.head?_eq_some_iff.mp (hhead d rfl)
    exact .inr ⟨d, more, more', hmore, rfl⟩

/-- Whether an operator of two characters comes first depends on these two. -/
theorem startsLongOperator_cons {c : Char} {rest rest' : Text}
    (hhead : ∀ d ∈ rest'.head?, rest.head? = some d) (h : startsLongOperator (c :: rest) = false) :
    startsLongOperator (c :: rest') = false := by
  rcases Text.exists_head_of_head? hhead with rfl | ⟨d, more, more', rfl, rfl⟩
  · simp [startsLongOperator, longOperators, List.isPrefixOf]
  · simpa [startsLongOperator, longOperators, List.isPrefixOf] using h

/-- Whether a comment comes first depends on two characters. -/
theorem commentReach_cons {c : Char} {rest rest' : Text}
    (hhead : ∀ d ∈ rest'.head?, rest.head? = some d) (h : commentReach (c :: rest) = 0) :
    commentReach (c :: rest') = 0 := by
  rcases Text.exists_head_of_head? hhead with rfl | ⟨d, more, more', rfl, rfl⟩
  · simp [commentReach]
  by_cases hdashes : c = '-' ∧ d = '-'
  · obtain ⟨rfl, rfl⟩ := hdashes
    simp [commentReach] at h
  by_cases hmark : c = '/' ∧ d = '*'
  · obtain ⟨rfl, rfl⟩ := hmark
    simp [commentReach] at h
  unfold commentReach
  split
  · rename_i heq
    obtain ⟨rfl, rfl, -⟩ := by simpa using heq
    exact absurd ⟨rfl, rfl⟩ hdashes
  · rename_i heq
    obtain ⟨rfl, rfl, -⟩ := by simpa using heq
    exact absurd ⟨rfl, rfl⟩ hmark
  · rfl

/-- What is read in front of a text is read in front of one that resembles it. -/
theorem Lexeme.ReadBefore.of_resembles {x : Lexeme} {rest rest' : Text} (h : x.ReadBefore rest)
    (hr : rest.Resembles rest') : x.ReadBefore rest' := by
  -- Nothing is behind an open quoted text, and no further quote behind a closed one.
  have hquoted : ∀ {quote : Char} {v : Text}, quotedRest quote (v ++ rest) = v.length →
      quotedRest quote (v ++ rest') = v.length := fun {quote v} hv => by
    have hnow := (quotedRest_append_iff hv).mp hv
    rw [quotedRest_append_iff hv]
    split
    · rename_i hopen
      exact hr.eq_nil (by rwa [if_pos hopen] at hnow)
    · rename_i hclosed
      rw [if_neg hclosed] at hnow
      exact fun hq => hnow (hr.head? quote hq)
  apply Form.readBefore
  cases h.form with
  | lineComment hv hend =>
    exact .lineComment hv fun c hc => hend c (hr.head? c hc)
  | markedComment hv =>
    refine .markedComment ((markedCommentRest_append_iff hv).mpr fun hopen => ?_)
    exact hr.eq_nil ((markedCommentRest_append_iff hv).mp hv hopen)
  | string hv => exact .string (hquoted hv)
  | prefixedString hp hv => exact .prefixedString hp (hquoted hv)
  | delimited hv => exact .delimited (hquoted hv)
  | number hne hw => exact .number hne ((hr.numberReach _ (Nat.le_of_eq hw)).trans hw)
  | word hc hv hend hprefix =>
    exact .word hc hv (fun d hd => hend d (hr.head? d hd)) (hr.literalPrefix _ hprefix)
  | longOperator hw => exact .longOperator hw
  | operator hc hlong hcomment =>
    exact .operator hc (startsLongOperator_cons hr.head? hlong)
      (commentReach_cons hr.head? hcomment)
  | @punctuation c k rest hk hlong hnumber =>
    refine .punctuation hk (startsLongOperator_cons hr.head? hlong) ?_
    have hsame := hr.numberReach [c] (by rw [List.singleton_append, hnumber]; omega)
    exact hsame.trans hnumber
  | unknown hc => exact .unknown hc

/-! ### Texts that are cut off -/

/-- A run in a text that is cut off ends there, if not before. -/
theorem runLength_take (p : Char → Bool) (t : Text) (n : Nat) :
    runLength p (t.take n) = min n (runLength p t) := by
  induction t generalizing n with
  | nil => simp [runLength]
  | cons c t ih =>
    cases n with
    | zero => simp [runLength]
    | succ n =>
      have hrest := ih n
      cases hc : p c with
      | false => simp [runLength, hc]
      | true =>
        simp only [runLength] at hrest
        simp only [runLength, List.take_succ_cons, List.takeWhile_cons_of_pos hc, List.length_cons,
          hrest]
        omega

/-- A text that is cut off has the digits that are left of it. -/
theorem digitsReach_take (t : Text) (n : Nat) :
    digitsReach (t.take n) = min n (digitsReach t) :=
  runLength_take _ t n

/-- A text that is cut off has the fraction that is left of it. -/
theorem fractionReach_take (t : Text) (n : Nat) :
    fractionReach (t.take n) = min n (fractionReach t) := by
  cases t with
  | nil => simp [fractionReach]
  | cons c t =>
    cases n with
    | zero => simp [fractionReach]
    | succ n =>
      rw [List.take_succ_cons]
      by_cases hc : c = '.'
      · subst hc
        simp only [fractionReach, digitsReach_take]
        omega
      · have hnone : ∀ u : Text, fractionReach (c :: u) = 0 := fun u => by
          rw [fractionReach]
          rintro v heq
          exact hc (List.cons.inj heq).1
        rw [hnone, hnone]
        omega

/-- An exponent is found in the text up to its end. -/
theorem exponentReach_take {t : Text} {n : Nat} (h : exponentReach t ≤ n) :
    exponentReach (t.take n) = exponentReach t := by
  cases t with
  | nil => simp [exponentReach]
  | cons e rest =>
    cases n with
    | zero => exact (Nat.le_zero.mp h).symm
    | succ n =>
      rw [List.take_succ_cons]
      unfold exponentReach at h ⊢
      simp only at h ⊢
      cases n with
      | zero =>
        -- There would be a digit at least behind the letter.
        have hnone : digitsReach ((rest.take 0).drop
            (headReach (fun c => c == '+' || c == '-') (rest.take 0))) = 0 := by
          simp [digitsReach, runLength]
        split at h
        · rename_i hcond
          omega
        · rename_i hcond
          rw [if_neg hcond, if_neg (fun hother => hother.2 hnone)]
      | succ n =>
        have hsign : headReach (fun c => c == '+' || c == '-') (rest.take (n + 1))
            = headReach (fun c => c == '+' || c == '-') rest := by
          cases rest <;> simp [headReach]
        rw [hsign, List.drop_take, digitsReach_take]
        generalize headReach (fun c => c == '+' || c == '-') rest = signs at h ⊢
        generalize digitsReach (rest.drop signs) = digits at h ⊢
        by_cases hcond : (e = 'e' ∨ e = 'E') ∧ digits ≠ 0
        · rw [if_pos hcond] at h ⊢
          have hmin : min (n + 1 - signs) digits = digits := by omega
          rw [hmin, if_pos hcond]
        · rw [if_neg hcond, if_neg]
          intro hother
          exact hcond ⟨hother.1, fun hzero => hother.2 (by rw [hzero]; omega)⟩

/-- A number is found in the text up to its end. -/
theorem numberReach_take {t : Text} {n : Nat} (h : numberReach t ≤ n) :
    numberReach (t.take n) = numberReach t := by
  unfold numberReach at h ⊢
  simp only at h ⊢
  rw [digitsReach_take]
  by_cases hnone : digitsReach t = 0 ∧ fractionReach (t.drop (digitsReach t)) < 2
  · have hwhole : min n (digitsReach t) = 0 := by omega
    rw [if_pos hnone, hwhole, List.drop_zero, fractionReach_take]
    obtain ⟨hzero, hfraction⟩ := hnone
    rw [hzero, List.drop_zero] at hfraction
    rw [if_pos ⟨rfl, by omega⟩]
  · rw [if_neg hnone] at h ⊢
    have hwhole : min n (digitsReach t) = digitsReach t := by omega
    have hfraction : fractionReach ((t.take n).drop (digitsReach t))
        = fractionReach (t.drop (digitsReach t)) := by
      rw [List.drop_take, fractionReach_take]
      omega
    rw [hwhole, hfraction, if_neg hnone, List.drop_take]
    rw [exponentReach_take (by omega)]

/-- What is read in front of a text is read in front of the first part of it. -/
theorem Lexeme.ReadBefore.of_append {x : Lexeme} {rest after : Text}
    (h : x.ReadBefore (rest ++ after)) : x.ReadBefore rest := by
  refine h.of_resembles ⟨fun c hc => ?_, fun w hw => ?_, fun w hw => ?_⟩
  · rw [List.head?_append, Option.mem_def.mp hc]
    rfl
  · have htake : (w ++ (rest ++ after)).take (w ++ rest).length = w ++ rest := by
      rw [← List.append_assoc, List.take_left]
    have hle : numberReach (w ++ (rest ++ after)) ≤ (w ++ rest).length := by
      rw [List.length_append]
      omega
    rw [← htake]
    exact numberReach_take hle
  · -- A prefix and its quote in the first part are in the text.
    by_contra hne
    obtain ⟨p, v, hsplit, hp⟩ := exists_of_literalPrefix_ne_zero hne
    rw [← List.append_assoc, hsplit, List.append_assoc, List.cons_append,
      literalPrefix_append hp] at hw
    exact hp.ne_nil (List.eq_nil_of_length_eq_zero hw)

/-! ### Texts with a semicolon in them -/

/-- A number does not reach over a semicolon. -/
theorem numberReach_append_semicolon (w rest : Text) :
    numberReach (w ++ ';' :: rest) = numberReach w := by
  have hle : numberReach (w ++ ';' :: rest) ≤ w.length := by
    by_contra hlt
    have hall := all_take_numberReach (w ++ ';' :: rest)
    have hmem : ';' ∈ (w ++ ';' :: rest).take (numberReach (w ++ ';' :: rest)) := by
      rw [List.take_append, List.mem_append]
      obtain ⟨n, hn⟩ := Nat.exists_eq_add_of_lt (Nat.lt_of_not_le hlt)
      refine .inr ?_
      rw [show numberReach (w ++ ';' :: rest) - w.length = n + 1 by omega]
      simp
    exact absurd (List.all_eq_true.mp hall ';' hmem) (by decide)
  have htake := numberReach_take hle
  rw [List.take_left] at htake
  exact htake.symm

/-- No semicolon is in the prefix of a literal, or is the quote behind it. -/
theorem IsLiteralPrefix.not_mem_semicolon {p : Text} (hp : IsLiteralPrefix p) :
    ';' ∉ p ++ ['\''] := by
  rcases hp with ⟨c, rfl, hc⟩ | ⟨c, d, rfl, hc, hd⟩
  · have hne : ';' ≠ c := by
      rintro rfl
      exact absurd hc (by decide)
    simp [hne]
  · rcases hc with rfl | rfl <;> rcases hd with rfl | rfl <;> decide

/-- Whether the prefix of a literal comes first does not depend on what is behind a semicolon. -/
theorem literalPrefix_append_semicolon {w rest : Text} (h : literalPrefix (w ++ ';' :: rest) = 0)
    (rest' : Text) : literalPrefix (w ++ ';' :: rest') = 0 := by
  by_contra hne
  obtain ⟨p, v, hsplit, hp⟩ := exists_of_literalPrefix_ne_zero hne
  -- The prefix and its quote are in front of the semicolon.
  obtain ⟨m, hm⟩ : ∃ m, w = p ++ ['\''] ++ m := by
    rw [show p ++ '\'' :: v = p ++ ['\''] ++ v by simp] at hsplit
    rcases List.append_eq_append_iff.mp hsplit with ⟨m, hm, hrest⟩ | ⟨m, hm, -⟩
    · cases m with
      | nil => exact ⟨[], by rw [hm, List.append_nil, List.append_nil]⟩
      | cons d m =>
        obtain ⟨rfl, -⟩ := List.cons_eq_cons.mp hrest
        exact absurd (by rw [hm]; simp) hp.not_mem_semicolon
    · exact ⟨m, hm⟩
  rw [hm, List.append_assoc, List.append_assoc, List.singleton_append, literalPrefix_append hp] at h
  exact hp.ne_nil (List.eq_nil_of_length_eq_zero h)

/-- What is read in front of a text with a semicolon does not depend on what comes after it. -/
theorem Lexeme.ReadBefore.of_semicolon {x : Lexeme} {rest after : Text}
    (h : x.ReadBefore (rest ++ ';' :: after)) (after' : Text) :
    x.ReadBefore (rest ++ ';' :: after') := by
  refine h.of_resembles ⟨fun c hc => ?_, fun w _ => ?_, fun w hw => ?_⟩
  · rw [List.head?_append] at hc ⊢
    exact hc
  · rw [← List.append_assoc, ← List.append_assoc, numberReach_append_semicolon,
      numberReach_append_semicolon]
  · rw [← List.append_assoc] at hw ⊢
    exact literalPrefix_append_semicolon hw after'

end SqlScript
