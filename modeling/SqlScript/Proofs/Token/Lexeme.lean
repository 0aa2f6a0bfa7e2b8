import Mathlib.Tactic.Common
import SqlScript.Token.Lexer

namespace SqlScript

/-!
# Lexemes

A lexeme is a token without its place. The lexemes of a text depend on nothing but the text, so
that two texts can be compared by them.

* `Lexeme.ReadBefore` — whether a lexeme is what is read of the front of a text, in front of a
  given rest; `Lexeme.Proper` is the same with nothing behind it;
* `lexemes_blank_append` and `lexemes_append` — a text is read by skipping blanks and by taking one
  lexeme after the other;
* `readBefore_of_lexemes_append` — the other way round, what is read first stands in front of what
  is read next;
* `scan_split` — every token of a text is read in front of the text behind it.
-/

/-- A token without its place. -/
structure Lexeme where
  kind : Kind
  text : Text
deriving DecidableEq

/-- The token without its place. -/
def Token.lexeme (t : Token) : Lexeme := ⟨t.kind, t.text⟩

/-- What is read of a text, comments included. -/
def Text.lexemes (t : Text) : List Lexeme := (Token.scan t).map Token.lexeme

namespace Lexeme

/-- Whether the lexeme is what is read first where its text stands in front of `rest`. -/
def ReadBefore (x : Lexeme) (rest : Text) : Prop :=
  x.text ≠ [] ∧
    (LexicalRule.first (x.text ++ rest)).reach (x.text ++ rest) = x.text.length ∧
    (LexicalRule.first (x.text ++ rest)).kind? x.text = some x.kind

instance (x : Lexeme) (rest : Text) : Decidable (x.ReadBefore rest) :=
  inferInstanceAs (Decidable (_ ∧ _ ∧ _))

/-- Whether the text of the lexeme is read as this lexeme when it stands alone. -/
def Proper (x : Lexeme) : Prop := x.ReadBefore []

instance (x : Lexeme) : Decidable x.Proper := inferInstanceAs (Decidable (x.ReadBefore []))

end Lexeme

/-! ### The rule that applies -/

namespace LexicalRule

/-- Every rule is tried at some point. -/
theorem mem_order (r : LexicalRule) : r ∈ order := by cases r <;> decide

/-- The rule that applies takes something, unless there is nothing to take. -/
theorem find?_order_of_ne_nil {t : Text} (h : t ≠ []) :
    order.find? (fun r => 0 < r.reach t) = some (first t) := by
  unfold first
  cases hf : order.find? fun r => 0 < r.reach t with
  | some r => rfl
  | none =>
    have hnone := List.find?_eq_none.mp hf anything (mem_order anything)
    have hpos : 0 < min 1 t.length := Nat.lt_min.mpr ⟨Nat.one_pos, List.length_pos_iff.mpr h⟩
    exact absurd (decide_eq_true hpos) hnone

/-- The first rule that takes something applies. -/
theorem first_eq_of_order {t : Text} {r : LexicalRule} (before : List LexicalRule)
    {after : List LexicalRule}
    (ho : order = before ++ r :: after) (hb : ∀ q ∈ before, q.reach t = 0) (hr : 0 < r.reach t) :
    first t = r := by
  have hf : before.find? (fun q => decide (0 < q.reach t)) = none := by
    rw [List.find?_eq_none]
    intro q hq
    simp [hb q hq]
  rw [first, ho, List.find?_append, hf]
  simp [hr]

/-- The rules that are tried before the one that applies take nothing. -/
theorem reach_eq_zero_of_first {t : Text} {r q : LexicalRule} (before : List LexicalRule)
    {after : List LexicalRule} (h : t ≠ []) (hr : first t = r)
    (ho : order = before ++ r :: after) (hq : q ∈ before) : q.reach t = 0 := by
  by_contra hne
  have hf := find?_order_of_ne_nil h
  rw [hr, ho, List.find?_append] at hf
  cases hb : before.find? fun q => decide (0 < q.reach t) with
  | none =>
    have := List.find?_eq_none.mp hb q hq
    simp only [decide_eq_true_eq] at this
    omega
  | some p =>
    rw [hb, Option.some_or, Option.some.injEq] at hf
    subst hf
    -- The rule would occur twice in the order.
    have hp : p ∈ before := List.mem_of_find?_eq_some hb
    have hnd : order.Nodup := by decide
    rw [ho, List.nodup_append] at hnd
    exact hnd.2.2 p hp p (List.mem_cons_self ..) rfl

/-- The rule that applies is the one for blanks exactly at a blank character. -/
theorem first_eq_blanks_iff {c : Char} {t : Text} :
    first (c :: t) = blanks ↔ Unicode.isBlank c = true := by
  constructor
  · intro h
    have := reach_first_pos (List.cons_ne_nil c t)
    rw [h] at this
    cases hc : Unicode.isBlank c with
    | true => rfl
    | false => simp [reach, runLength, hc] at this
  · intro h
    exact first_eq_of_order [] rfl (by simp) (by simp [reach, runLength, h])

/-- Every rule but the one for blanks makes a token of what it takes. -/
theorem isSome_kind?_of_first {t : Text} (h : t ≠ []) (hb : first t ≠ blanks) :
    ((first t).kind? (t.take ((first t).reach t))).isSome = true := by
  have hpos := reach_first_pos h
  cases hr : first t with
  | blanks => exact absurd hr hb
  | punctuation =>
    rw [hr] at hpos
    cases t with
    | nil => exact absurd rfl h
    | cons c rest =>
      simp only [reach, punctuationReach, headReach, List.head?_cons, Option.any_some] at hpos ⊢
      by_cases hk : (punctuationKind? c).isSome = true
      · simp [kind?, hk]
      · simp [hk] at hpos
  | _ => rfl

end LexicalRule

/-! ### Reading from the front -/

namespace Token

/-- What is read does not depend on where the text starts. -/
theorem map_lexeme_scanFrom (offset offset' passed : Nat) (t : Text) :
    (scanFrom offset passed t).map lexeme = (scanFrom offset' passed t).map lexeme := by
  induction t generalizing offset offset' passed with
  | nil => rfl
  | cons c rest ih =>
    cases passed with
    | succ n => exact ih _ _ n
    | zero =>
      simp only [scanFrom, List.map_append, ih (offset + 1) (offset' + 1)]
      congr 1
      cases (LexicalRule.first (c :: rest)).kind? _ <;> rfl

/-- Blanks at a place make no token. -/
theorem scanFrom_blank_append {g : Text} (hg : Text.isBlank g = true) (offset : Nat) (t : Text) :
    scanFrom offset 0 (g ++ t) = scanFrom (offset + g.length) 0 t := by
  cases g with
  | nil => rfl
  | cons c g =>
    have hc : Unicode.isBlank c = true := (List.all_eq_true.mp hg) c (List.mem_cons_self ..)
    have hfirst : LexicalRule.first (c :: g ++ t) = .blanks :=
      LexicalRule.first_eq_blanks_iff.mpr hc
    have hreach : LexicalRule.blanks.reach (c :: g ++ t)
        = (c :: g).length + runLength Unicode.isBlank t := by
      have hall : ∀ d ∈ c :: g, Unicode.isBlank d = true := List.all_eq_true.mp hg
      rw [LexicalRule.reach, runLength, List.takeWhile_append_of_pos hall, List.length_append]
      rfl
    rw [scanFrom_zero (by simp), hfirst, hreach]
    simp only [LexicalRule.kind?, Option.map_none, Option.toList_none, List.nil_append]
    rw [← List.drop_drop, List.drop_left]
    -- The blanks that follow are skipped on both sides.
    cases t with
    | nil => simp [scanFrom]
    | cons d t =>
      cases hd : Unicode.isBlank d with
      | false => simp [runLength, hd]
      | true =>
        rw [scanFrom_zero (List.cons_ne_nil d t), LexicalRule.first_eq_blanks_iff.mpr hd]
        simp only [LexicalRule.kind?, LexicalRule.reach, Option.map_none, Option.toList_none,
          List.nil_append]
        congr 1
        omega

/-- What is read first at a place, and what is read behind it. -/
theorem scanFrom_append {x : Lexeme} {rest : Text} (h : x.ReadBefore rest) (offset : Nat) :
    scanFrom offset 0 (x.text ++ rest)
      = placed x.kind x.text offset :: scanFrom (offset + x.text.length) 0 rest := by
  obtain ⟨hne, hreach, hkind⟩ := h
  rw [scanFrom_zero (by simp [hne]), hreach, List.take_left, List.drop_left, hkind]
  rfl

/-- What is read first and takes the whole text is its only token. -/
theorem scan_of_readBefore_nil {x : Lexeme} (h : x.ReadBefore []) :
    scan x.text = [placed x.kind x.text 0] := by
  have hscan := scanFrom_append h 0
  rw [List.append_nil] at hscan
  exact hscan

/-- Some lexeme is read first where the text does not start with a blank. -/
theorem exists_readBefore {c : Char} {t : Text} (hc : Unicode.isBlank c = false) :
    ∃ (x : Lexeme) (rest : Text), c :: t = x.text ++ rest ∧ x.ReadBefore rest := by
  have hb : LexicalRule.first (c :: t) ≠ .blanks := fun h => by
    rw [LexicalRule.first_eq_blanks_iff.mp h] at hc
    exact absurd hc (by decide)
  obtain ⟨k, hk⟩ := Option.isSome_iff_exists.mp
    (LexicalRule.isSome_kind?_of_first (List.cons_ne_nil c t) hb)
  have hle := LexicalRule.reach_le (LexicalRule.first (c :: t)) (c :: t)
  have hpos := LexicalRule.reach_first_pos (List.cons_ne_nil c t)
  generalize hn : (LexicalRule.first (c :: t)).reach (c :: t) = n at *
  have hlen : ((c :: t).take n).length = n := by
    rw [List.length_take]
    exact Nat.min_eq_left hle
  refine ⟨⟨k, (c :: t).take n⟩, (c :: t).drop n, (List.take_append_drop _ _).symm, ?_, ?_, ?_⟩
  · intro hnil
    change List.take _ _ = _ at hnil
    rw [hnil, List.length_nil] at hlen
    omega
  · simp only [List.take_append_drop, hn, hlen]
  · simpa only [List.take_append_drop] using hk

/-- Every token of a text is read in front of the rest of the text, and has its place there. -/
theorem scanFrom_split {t : Text} {offset passed : Nat} {before after : List Token} {x : Token}
    (h : scanFrom offset passed t = before ++ x :: after) :
    ∃ (rest : Text) (place : Nat), x = placed x.kind x.text place ∧ x.lexeme.ReadBefore rest ∧
      after = scanFrom (place + x.text.length) 0 rest := by
  induction t generalizing offset passed before with
  | nil => simp [scanFrom] at h
  | cons c rest ih =>
    -- Characters that were passed, and blanks, are in front of the next lexeme.
    cases passed with
    | succ n => exact ih h
    | zero =>
      cases hc : Unicode.isBlank c with
      | true =>
        simp only [scanFrom, LexicalRule.first_eq_blanks_iff.mpr hc, LexicalRule.kind?,
          Option.map_none, Option.toList_none, List.nil_append] at h
        exact ih h
      | false =>
        obtain ⟨y, behind, hsplit, hread⟩ := exists_readBefore (t := rest) hc
        cases before with
        | nil =>
          rw [hsplit, scanFrom_append hread, List.nil_append, List.cons.injEq] at h
          obtain ⟨rfl, rfl⟩ := h
          exact ⟨behind, offset, rfl, hread, rfl⟩
        | cons b before =>
          obtain ⟨-, hreach, hkind⟩ := hread
          rw [← hsplit] at hreach hkind
          have htake : (c :: rest).take y.text.length = y.text := by
            rw [hsplit, List.take_left]
          simp only [scanFrom, hreach, htake, hkind, Option.map_some, Option.toList_some,
            List.cons_append, List.nil_append, List.cons.injEq] at h
          exact ih h.2

end Token

namespace Text

theorem lexemes_nil : lexemes [] = [] := rfl

/-- Blanks in front of a text do not change what is read. -/
theorem lexemes_blank_append {g : Text} (hg : isBlank g = true) (t : Text) :
    lexemes (g ++ t) = lexemes t := by
  rw [lexemes, Token.scan, Token.scanFrom_blank_append hg]
  exact Token.map_lexeme_scanFrom _ _ _ t

/-- The lexeme at the front of a text is read first. -/
theorem lexemes_append {x : Lexeme} {rest : Text} (h : x.ReadBefore rest) :
    lexemes (x.text ++ rest) = x :: lexemes rest := by
  rw [lexemes, Token.scan, Token.scanFrom_append h, List.map_cons]
  exact congrArg _ (Token.map_lexeme_scanFrom _ _ _ rest)

/-- Every token of a text is read in front of the rest of the text. -/
theorem scan_split {t : Text} {before after : List Token} {x : Token}
    (h : Token.scan t = before ++ x :: after) :
    ∃ (rest : Text) (place : Nat), x = Token.placed x.kind x.text place ∧
      x.lexeme.ReadBefore rest ∧ after = Token.scanFrom (place + x.text.length) 0 rest :=
  Token.scanFrom_split h

/-- What is read first stands in front of what is read next. -/
theorem readBefore_of_lexemes_append {x : Lexeme} {rest : Text} {more : List Lexeme}
    (hx : ∀ c ∈ x.text.head?, Unicode.isBlank c = false) (hne : x.text ≠ [])
    (h : lexemes (x.text ++ rest) = x :: more) : x.ReadBefore rest ∧ more = lexemes rest := by
  obtain ⟨c, w, hw⟩ := List.exists_cons_of_ne_nil hne
  have hc : Unicode.isBlank c = false := hx c (by simp [hw])
  obtain ⟨y, rest', hsplit, hread⟩ := Token.exists_readBefore (t := w ++ rest) hc
  rw [← List.cons_append, ← hw] at hsplit
  rw [hsplit, lexemes_append hread, List.cons.injEq] at h
  obtain ⟨rfl, rfl⟩ := h
  obtain rfl : rest = rest' := List.append_cancel_left hsplit
  exact ⟨hread, rfl⟩

end Text

end SqlScript
