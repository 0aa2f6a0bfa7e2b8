import Mathlib.Tactic.Common
import SqlScript.Proofs.Unicode.Classes

namespace SqlScript

open Unicode

/-!
# The reach of a token and what follows it

How far a form of token reaches over a text `w ++ rest` depends on `rest` only by its first
character, provided that the token ends with `w`.

* `runLength_append` — a run of characters goes on in `rest` only when it takes all of `w`;
* `markedCommentRest_append_iff` and `quotedRest_append_iff` — a comment between marks and a
  quoted text end where they are closed; `commentStaysOpen` and `quoteStaysOpen` tell that they are
  not, and then only the end of the text ends them;
* `numberReach_append_iff` — a number ends in front of a boundary, except that a dot behind digits
  belongs to it.
-/

/-! ### Runs -/

/-- A run of characters goes on behind a text when it takes all of it. -/
theorem runLength_append (p : Char → Bool) (w rest : Text) :
    runLength p (w ++ rest)
      = if w.all p then w.length + runLength p rest else runLength p w := by
  induction w with
  | nil => simp
  | cons c w ih =>
    cases hc : p c with
    | false => simp [runLength, hc]
    | true =>
      simp only [runLength, List.cons_append, List.takeWhile_cons_of_pos hc, List.length_cons,
        List.all_cons, hc, Bool.true_and] at ih ⊢
      rw [ih]
      split <;> omega

/-- A run that does not take all of a text is shorter than the text. -/
theorem runLength_lt {p : Char → Bool} {w : Text} (h : w.all p = false) :
    runLength p w < w.length := by
  induction w with
  | nil => simp at h
  | cons c w ih =>
    cases hc : p c with
    | false => simp [runLength, hc]
    | true =>
      simp only [List.all_cons, hc, Bool.true_and] at h
      have := ih h
      simp only [runLength, List.takeWhile_cons_of_pos hc, List.length_cons] at this ⊢
      omega

/-- There is no run in front of a character that does not belong to it. -/
theorem runLength_eq_zero {p : Char → Bool} {t : Text} (h : ∀ c ∈ t.head?, p c = false) :
    runLength p t = 0 := by
  cases t with
  | nil => rfl
  | cons c t => simp [runLength, h c (by simp)]

/-- There is no run where the first character fails the test. -/
theorem runLength_eq_zero_iff {p : Char → Bool} {t : Text} :
    runLength p t = 0 ↔ ∀ c ∈ t.head?, p c = false := by
  refine ⟨fun h c hc => ?_, runLength_eq_zero⟩
  cases t with
  | nil => simp at hc
  | cons d t =>
    obtain rfl : d = c := by simpa using hc
    cases hd : p d with
    | false => rfl
    | true => simp [runLength, hd] at h

/-- A run takes exactly a text when all of it belongs to the run and the next character does
    not. -/
theorem runLength_append_eq_length_iff {p : Char → Bool} {w rest : Text} :
    runLength p (w ++ rest) = w.length ↔
      w.all p = true ∧ ∀ c ∈ rest.head?, p c = false := by
  rw [runLength_append, ← runLength_eq_zero_iff]
  cases h : w.all p with
  | true => simp
  | false =>
    have := runLength_lt h
    simp only [Bool.false_eq_true, if_false, false_and, iff_false]
    omega

/-! ### Comments between marks -/

/-- Whether the rest of a comment between marks has no closing mark. -/
def commentStaysOpen : Text → Bool
  | [] => true
  | '*' :: '/' :: _ => false
  | _ :: rest => commentStaysOpen rest

/-- Nothing is left of a `/*` comment only at the end of the text. -/
theorem markedCommentRest_eq_zero_iff {t : Text} : markedCommentRest t = 0 ↔ t = [] := by
  fun_cases markedCommentRest t <;> simp

/-- A comment between marks goes on behind two characters that are no closing mark. -/
theorem markedCommentRest_cons_cons {c d : Char} (h : ¬(c = '*' ∧ d = '/')) (t : Text) :
    markedCommentRest (c :: d :: t) = 1 + markedCommentRest (d :: t) := by
  rw [markedCommentRest]
  rintro rest rfl hd
  exact h ⟨rfl, (List.cons.inj hd).1⟩

/-- One character is the rest of a comment only at the end of a text. -/
theorem markedCommentRest_cons_eq_one_iff {c : Char} {t : Text} :
    markedCommentRest (c :: t) = 1 ↔ t = [] := by
  cases t with
  | nil => simp [markedCommentRest]
  | cons d t =>
    by_cases hmark : c = '*' ∧ d = '/'
    · obtain ⟨rfl, rfl⟩ := hmark
      simp [markedCommentRest]
    · have hne : markedCommentRest (d :: t) ≠ 0 := by simp [markedCommentRest_eq_zero_iff]
      simp only [markedCommentRest_cons_cons hmark, reduceCtorEq, iff_false]
      omega

/-- A comment between marks ends with a text when its first closing mark ends the text, or when
    there is none and nothing follows. -/
theorem markedCommentRest_append_iff {v rest rest' : Text}
    (h : markedCommentRest (v ++ rest) = v.length) :
    markedCommentRest (v ++ rest') = v.length ↔ (commentStaysOpen v = true → rest' = []) := by
  fun_induction commentStaysOpen v with
  | case1 => simpa using markedCommentRest_eq_zero_iff
  | case2 v =>
    simp only [List.cons_append, markedCommentRest, List.length_cons] at h
    obtain rfl : v = [] := List.eq_nil_of_length_eq_zero (by omega)
    simp [markedCommentRest]
  | case3 c v hc ih =>
    -- The closing mark, if any, is in the text behind the first character.
    cases v with
    | nil => simpa [commentStaysOpen] using markedCommentRest_cons_eq_one_iff
    | cons d v =>
      have hmark : ¬(c = '*' ∧ d = '/') := fun h => hc v h.1 (by rw [h.2])
      simp only [List.cons_append, markedCommentRest_cons_cons hmark, List.length_cons] at h ih ⊢
      rw [← ih (by omega)]
      omega

/-! ### Quoted texts -/

/-- Whether the rest of a quoted text has no closing quote. -/
def quoteStaysOpen (quote : Char) : Text → Bool
  | [] => true
  | [c] => c != quote
  | c :: d :: rest =>
    if c ≠ quote then quoteStaysOpen quote (d :: rest)
    else if d = quote then quoteStaysOpen quote rest
    else false

/-- Nothing is left of a quoted text only at the end of the text. -/
theorem quotedRest_eq_zero_iff {quote : Char} {t : Text} : quotedRest quote t = 0 ↔ t = [] := by
  fun_cases quotedRest quote t <;> simp

/-- A character that is no quote is quoted, and the rest goes on behind it. -/
theorem quotedRest_cons_of_ne {quote c : Char} (hc : c ≠ quote) (t : Text) :
    quotedRest quote (c :: t) = 1 + quotedRest quote t := by
  cases t <;> simp [quotedRest, hc]

/-- A quote that no other one follows closes a quoted text. -/
theorem quotedRest_quote {quote : Char} {t : Text} (ht : t.head? ≠ some quote) :
    quotedRest quote (quote :: t) = 1 := by
  cases t with
  | nil => simp [quotedRest]
  | cons d t => simp_all [quotedRest]

/-- A quoted text ends with a text when its closing quote ends the text and no quote follows, or
    when there is none and nothing follows. -/
theorem quotedRest_append_iff {quote : Char} {v rest rest' : Text}
    (h : quotedRest quote (v ++ rest) = v.length) :
    quotedRest quote (v ++ rest') = v.length ↔
      if quoteStaysOpen quote v then rest' = [] else rest'.head? ≠ some quote := by
  fun_induction quoteStaysOpen quote v with
  | case1 => simpa using quotedRest_eq_zero_iff
  | case2 c =>
    by_cases hc : c = quote
    · subst hc
      simp only [bne_self_eq_false, Bool.false_eq_true, if_false, List.singleton_append,
        List.length_singleton]
      refine ⟨fun h' hq => ?_, quotedRest_quote⟩
      cases rest' with
      | nil => simp at hq
      | cons d t =>
        obtain rfl : d = c := by simpa using hq
        simp [quotedRest] at h'
        omega
    · simp [quotedRest_cons_of_ne hc, hc, quotedRest_eq_zero_iff]
  | case3 c d v hc ih =>
    simp only [List.cons_append, quotedRest_cons_of_ne hc, List.length_cons] at h ih ⊢
    rw [← ih (by omega)]
    omega
  | case4 c v hc ih =>
    obtain rfl : c = quote := by simpa using hc
    simp only [List.cons_append, quotedRest, ne_eq, not_true_eq_false, if_false, if_true,
      List.length_cons] at h ⊢
    rw [← ih (by omega)]
    omega
  -- A single quote would have ended the text here.
  | case5 c d v hc hd =>
    obtain rfl : c = quote := by simpa using hc
    simp [quotedRest, hd] at h

/-! ### Numbers -/

/-- Digits go on into a second text when the first one has nothing else. -/
theorem digitsReach_append (w rest : Text) :
    digitsReach (w ++ rest)
      = if w.all isDecimalDigit then w.length + digitsReach rest else digitsReach w :=
  runLength_append isDecimalDigit w rest

/-- No digits start with a boundary. -/
theorem digitsReach_eq_zero {t : Text} (ht : ∀ c ∈ t.head?, isBoundary c = true) :
    digitsReach t = 0 :=
  runLength_eq_zero fun c hc => not_isDecimalDigit_of_isBoundary (ht c hc)

/-- No exponent starts with a boundary. -/
theorem exponentReach_eq_zero {t : Text} (ht : ∀ c ∈ t.head?, isBoundary c = true) :
    exponentReach t = 0 := by
  cases t with
  | nil => rfl
  | cons c t =>
    have hc : isBoundary c = true := ht c (by simp)
    have he : c ≠ 'e' := ne_of_apply_eq_true hc (by decide)
    have hE : c ≠ 'E' := ne_of_apply_eq_true hc (by decide)
    simp [exponentReach, he, hE]

/-- An exponent ends in front of a boundary. -/
theorem exponentReach_append {w rest' : Text} (rest : Text)
    (h : exponentReach (w ++ rest) = w.length) (hrest' : ∀ c ∈ rest'.head?, isBoundary c = true) :
    exponentReach (w ++ rest') = w.length := by
  cases w with
  | nil => exact exponentReach_eq_zero hrest'
  | cons e w =>
    simp only [List.cons_append, exponentReach, List.length_cons] at h ⊢
    split at h
    · rename_i hcond
      -- Something of the exponent follows its letter, so that its sign is decided in `w`.
      have hw : w ≠ [] := by
        rintro rfl
        simp only [List.nil_append, List.length_nil] at h hcond
        omega
      obtain ⟨c, v, rfl⟩ := List.exists_cons_of_ne_nil hw
      have hsign : ∀ u : Text, headReach (fun c => c == '+' || c == '-') (c :: v ++ u)
          = headReach (fun c => c == '+' || c == '-') (c :: v) := fun u => by simp [headReach]
      have hle := headReach_le (fun c => c == '+' || c == '-') (c :: v)
      rw [hsign] at h hcond ⊢
      rw [List.drop_append_of_le_length hle] at h hcond ⊢
      have hdigits : runLength isDecimalDigit
          ((c :: v).drop (headReach (fun c => c == '+' || c == '-') (c :: v)) ++ rest)
            = ((c :: v).drop (headReach (fun c => c == '+' || c == '-') (c :: v))).length := by
        rw [List.length_drop]
        simp only [digitsReach] at h
        omega
      have hall := (runLength_append_eq_length_iff.mp hdigits).1
      change digitsReach _ = _ at hdigits
      rw [digitsReach_append, if_pos hall, digitsReach_eq_zero hrest', Nat.add_zero, ← hdigits,
        if_pos hcond]
      exact h
    · omega

/-- What follows the first digits of a number, its fraction and its exponent, ends in front of a
    boundary. -/
theorem fractionReach_append {u rest rest' : Text} (hne : u ≠ [])
    (h : fractionReach (u ++ rest) + exponentReach ((u ++ rest).drop (fractionReach (u ++ rest)))
      = u.length) (hrest' : ∀ c ∈ rest'.head?, isBoundary c = true) :
    fractionReach (u ++ rest') = fractionReach (u ++ rest) ∧
      exponentReach ((u ++ rest').drop (fractionReach (u ++ rest')))
        = exponentReach ((u ++ rest).drop (fractionReach (u ++ rest))) := by
  obtain ⟨d, v, rfl⟩ := List.exists_cons_of_ne_nil hne
  by_cases hdot : d = '.'
  · subst hdot
    simp only [List.cons_append, fractionReach, List.length_cons] at h ⊢
    cases hall : v.all isDecimalDigit with
    | true =>
      -- The fraction is all there is, in front of `rest` as well.
      simp only [digitsReach_append, if_pos hall, digitsReach_eq_zero hrest', Nat.add_comm 1,
        List.drop_succ_cons, List.drop_left, exponentReach_eq_zero hrest'] at h ⊢
      omega
    | false =>
      have hlt : digitsReach v < v.length := runLength_lt hall
      have hdigits : ∀ u : Text, digitsReach (v ++ u) = digitsReach v := fun u => by
        rw [digitsReach_append, hall]
        rfl
      have hdrop : ∀ u : Text, (v ++ u).drop (digitsReach v) = v.drop (digitsReach v) ++ u :=
        fun u => List.drop_append_of_le_length (Nat.le_of_lt hlt)
      simp only [hdigits, Nat.add_comm 1, List.drop_succ_cons, hdrop, true_and] at h ⊢
      have hexponent : exponentReach (v.drop (digitsReach v) ++ rest)
          = (v.drop (digitsReach v)).length := by
        rw [List.length_drop]
        omega
      rw [hexponent, exponentReach_append rest hexponent hrest']
  · have hfraction : ∀ u : Text, fractionReach (d :: v ++ u) = 0 := fun u => by
      rw [List.cons_append, fractionReach]
      rintro rest h
      exact hdot (List.cons.inj h).1
    simp only [hfraction, List.drop_zero, Nat.zero_add, true_and] at h ⊢
    rw [h, exponentReach_append rest h hrest']

/-- Digits alone are a number in front of a boundary that is no dot. -/
theorem numberReach_digits_append_iff {w rest' : Text} (hne : w ≠ [])
    (hall : w.all isDecimalDigit = true) (hrest' : ∀ c ∈ rest'.head?, isBoundary c = true) :
    numberReach (w ++ rest') = w.length ↔ rest'.head? ≠ some '.' := by
  have hpos := List.length_pos_iff.mpr hne
  rw [numberReach, digitsReach_append, if_pos hall, digitsReach_eq_zero hrest', Nat.add_zero]
  simp only [List.drop_left, ← List.drop_drop]
  by_cases hdot : rest'.head? = some '.'
  · obtain ⟨v, rfl⟩ := List.head?_eq_some_iff.mp hdot
    simp only [fractionReach, List.head?_cons, ne_eq, not_true_eq_false, iff_false]
    split <;> omega
  · have hfraction : fractionReach rest' = 0 := by
      rw [fractionReach]
      rintro v rfl
      exact hdot rfl
    rw [hfraction, List.drop_zero, exponentReach_eq_zero hrest']
    simp only [ne_eq, hdot, not_false_eq_true, iff_true]
    split <;> omega

/-- A number ends in front of a boundary, unless that is a dot behind digits alone. -/
theorem numberReach_append_iff {w rest rest' : Text} (h : numberReach (w ++ rest) = w.length)
    (hne : w ≠ []) (hrest' : ∀ c ∈ rest'.head?, isBoundary c = true) :
    numberReach (w ++ rest') = w.length ↔
      ¬(w.all isDecimalDigit = true ∧ rest'.head? = some '.') := by
  have hpos := List.length_pos_iff.mpr hne
  cases hall : w.all isDecimalDigit with
  | true => rw [numberReach_digits_append_iff hne hall hrest', eq_self, true_and]
  | false =>
    simp only [Bool.false_eq_true, false_and, not_false_eq_true, iff_true]
    have hlt : digitsReach w < w.length := runLength_lt hall
    have hwhole : ∀ u : Text, digitsReach (w ++ u) = digitsReach w := fun u => by
      rw [digitsReach_append, hall]
      rfl
    have hdrop : ∀ u : Text, (w ++ u).drop (digitsReach w) = w.drop (digitsReach w) ++ u :=
      fun u => List.drop_append_of_le_length (Nat.le_of_lt hlt)
    -- The first digits end in `w`, so that the rest of the number follows them there.
    have htail : (w.drop (digitsReach w)).length = w.length - digitsReach w := List.length_drop
    simp only [numberReach, hwhole, ← List.drop_drop, hdrop] at h ⊢
    split at h
    · omega
    · rename_i hnumber
      have hne' : w.drop (digitsReach w) ≠ [] := List.ne_nil_of_length_pos (by omega)
      have hlength : fractionReach (w.drop (digitsReach w) ++ rest)
          + exponentReach ((w.drop (digitsReach w) ++ rest).drop
              (fractionReach (w.drop (digitsReach w) ++ rest)))
            = (w.drop (digitsReach w)).length := by omega
      obtain ⟨hfraction, hexponent⟩ := fractionReach_append hne' hlength hrest'
      rw [hexponent, hfraction, if_neg hnumber]
      exact h

end SqlScript
