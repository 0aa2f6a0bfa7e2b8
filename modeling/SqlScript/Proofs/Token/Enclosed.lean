import SqlScript.Proofs.Token.Part
import SqlScript.Proofs.Token.Word
import SqlScript.Text.Doubled

namespace SqlScript

open Unicode LexicalRule

/-!
# Quoted texts and comments

A string literal, a delimited name and a comment are one token each, whatever is written in them, and
each of them ends where it is closed.

* `Text.Quoted` — what stands between quotes, in front of some text;
* `quotedRest_eq_length_iff` — a quoted text is read exactly where it stands;
* `Text.Comment` — what a comment is, in front of some text;
* `Text.Opens` — what a token of each of these kinds starts with;
* `Lexeme.Enclosed` — what such a token is, in front of some text;
* `Token.enclosed_scan` — what opens such a token is read as one, and it ends where it is closed.
-/

/-! ### Quoted texts -/

/-- A quoted text in front of some other text: the quotes in it are doubled, and it ends with a quote
    that no other one follows, or with the end of all text. -/
inductive Text.Quoted (quote : Char) : Text → Text → Prop where
  | closed {s rest : Text} : rest.head? ≠ some quote → Quoted quote (enclose quote s) rest
  | unclosed {s : Text} : Quoted quote (quote :: double quote s) []

/-- A quoted text goes on behind doubled quotes. -/
theorem quotedRest_double_append (quote : Char) (s rest : Text) :
    quotedRest quote (Text.double quote s ++ rest)
      = (Text.double quote s).length + quotedRest quote rest := by
  induction s with
  | nil => simp [Text.double]
  | cons c s ih =>
    rw [Text.double]
    split
    · rename_i hc
      subst hc
      simp only [List.cons_append, quotedRest, ne_eq, not_true_eq_false, if_false, if_true, ih,
        List.length_cons]
      omega
    · rename_i hc
      rw [List.cons_append, quotedRest_cons_of_ne hc, ih, List.length_cons]
      omega

/-- What is read of a quoted text behind its first quote has doubled quotes up to the closing one, or
    up to the end of all text. -/
theorem exists_double_of_quotedRest {quote : Char} {v rest : Text}
    (h : quotedRest quote (v ++ rest) = v.length) :
    ∃ s, (v = Text.double quote s ++ [quote] ∧ rest.head? ≠ some quote) ∨
      (v = Text.double quote s ∧ rest = []) := by
  fun_induction quoteStaysOpen quote v with
  | case1 => exact ⟨[], .inr ⟨rfl, quotedRest_eq_zero_iff.mp h⟩⟩
  | case2 c =>
    have hrest := (quotedRest_append_iff h).mp h
    by_cases hc : c = quote
    · subst hc
      exact ⟨[], .inl ⟨rfl, by simpa [quoteStaysOpen] using hrest⟩⟩
    · exact ⟨[c], .inr ⟨by simp [Text.double, hc], by simpa [quoteStaysOpen, hc] using hrest⟩⟩
  | case3 c d v hc ih =>
    simp only [List.cons_append, quotedRest_cons_of_ne hc, List.length_cons] at h ih
    obtain ⟨s, hs⟩ := ih (by omega)
    refine ⟨c :: s, ?_⟩
    rw [Text.double, if_neg hc]
    exact hs.imp (fun hs => ⟨by rw [hs.1]; rfl, hs.2⟩) fun hs => ⟨by rw [hs.1], hs.2⟩
  -- Two quotes stand for one.
  | case4 c v hc ih =>
    obtain rfl : c = quote := by simpa using hc
    simp only [List.cons_append, quotedRest, ne_eq, not_true_eq_false, if_false, if_true,
      List.length_cons] at h
    obtain ⟨s, hs⟩ := ih (by omega)
    refine ⟨c :: s, ?_⟩
    rw [Text.double, if_pos rfl]
    exact hs.imp (fun hs => ⟨by rw [hs.1]; rfl, hs.2⟩) fun hs => ⟨by rw [hs.1], hs.2⟩
  | case5 c d v hc hd =>
    obtain rfl : c = quote := by simpa using hc
    simp [quotedRest, hd] at h

/-- A quoted text is read exactly where it stands. -/
theorem quotedRest_eq_length_iff {quote : Char} {v rest : Text} :
    quotedRest quote (v ++ rest) = v.length ↔ Text.Quoted quote (quote :: v) rest := by
  constructor
  · intro h
    obtain ⟨s, ⟨rfl, hrest⟩ | ⟨rfl, rfl⟩⟩ := exists_double_of_quotedRest h
    · exact .closed hrest
    · exact .unclosed
  · rintro (⟨hrest⟩ | _)
    · rw [List.append_assoc, quotedRest_double_append, List.singleton_append,
        quotedRest_quote hrest, List.length_append, List.length_singleton]
    · rw [quotedRest_double_append]
      rfl

/-! ### Comments -/

namespace Text

/-- The two characters that open a comment between marks. -/
def openingMark : Text := ['/', '*']

/-- A comment in front of some other text: it ends with its line, at the first closing mark that comes
    behind its opening one, or with the end of all text. -/
inductive Comment : Text → Text → Prop where
  | line {v rest : Text} : (∀ c ∈ v, endsLine c = false) → (∀ c ∈ rest.head?, endsLine c = true) →
      Comment (Token.lineCommentMark ++ v) rest
  | closed {v rest : Text} : (∀ a b, v ++ closingMark = a ++ closingMark ++ b → b = []) →
      Comment (openingMark ++ (v ++ closingMark)) rest
  | unclosed {v : Text} : ¬ closingMark <:+: v → Comment (openingMark ++ v) []

end Text

/-- A comment between marks stays open when there is no closing mark in it. -/
theorem not_isInfix_of_commentStaysOpen {v : Text} (h : commentStaysOpen v = true) :
    ¬ Text.closingMark <:+: v := by
  fun_induction commentStaysOpen v with
  | case1 => decide
  | case2 v => exact absurd h (by decide)
  | case3 c v hc ih =>
    rw [List.infix_cons_iff, not_or]
    refine ⟨?_, ih h⟩
    rintro ⟨u, hu⟩
    obtain ⟨rfl, rfl⟩ := List.cons.inj hu
    exact hc u rfl rfl

/-- What is read of a comment between marks ends at the first closing mark, or with the end of all
    text. -/
theorem Text.comment_of_markedCommentRest {v rest : Text}
    (h : markedCommentRest (v ++ rest) = v.length) : Text.Comment (Text.openingMark ++ v) rest := by
  cases hopen : commentStaysOpen v with
  | true =>
    obtain rfl : rest = [] := (markedCommentRest_append_iff h).mp h hopen
    exact .unclosed (not_isInfix_of_commentStaysOpen hopen)
  | false =>
    obtain ⟨u, rfl, hlast⟩ := exists_of_markedCommentRest h hopen
    exact .closed hlast

/-! ### Lexemes -/

/-- Whether tokens of the kind can hold any characters. -/
def Kind.isEnclosed : Kind → Bool
  | .string | .delimited | .comment => true
  | _ => false

/-- What opens a token of the kind at the front of a text. -/
inductive Text.Opens : Kind → Text → Prop where
  | literal {p t : Text} : (p = [] ∨ IsLiteralPrefix p) → Opens .string (p ++ '\'' :: t)
  | name {t : Text} : Opens .delimited ('"' :: t)
  | lineComment {t : Text} : Opens .comment (Token.lineCommentMark ++ t)
  | markedComment {t : Text} : Opens .comment (openingMark ++ t)

/-- What has an opening is of a kind that can hold any characters. -/
theorem Text.Opens.isEnclosed {k : Kind} {t : Text} (h : Opens k t) : k.isEnclosed = true := by
  cases h <;> rfl

/-- A string literal, a delimited name or a comment in front of some text. -/
inductive Lexeme.Enclosed : Lexeme → Text → Prop where
  | literal {p w rest : Text} : (p = [] ∨ IsLiteralPrefix p) → Text.Quoted '\'' w rest →
      Enclosed ⟨.string, p ++ w⟩ rest
  | name {w rest : Text} : Text.Quoted '"' w rest → Enclosed ⟨.delimited, w⟩ rest
  | comment {w rest : Text} : Text.Comment w rest → Enclosed ⟨.comment, w⟩ rest

/-- A word is of no kind that can hold any characters. -/
theorem isEnclosed_wordKind (t : Text) : (wordKind t).isEnclosed = false := by
  have h := isBareWord_wordKind t
  cases hk : wordKind t <;> simp_all [Kind.isBareWord, Kind.isEnclosed]

/-- A mark is of no kind that can hold any characters. -/
theorem Kind.isEnclosed_of_mark? {k : Kind} {c : Char} (h : k.mark? = some c) :
    k.isEnclosed = false := by
  cases k <;> simp_all [Kind.mark?, Kind.isEnclosed]

namespace Lexeme

variable {x : Lexeme} {rest : Text}

/-- A literal, a name and a comment end where they are closed. -/
theorem Form.enclosed (h : x.Form rest) (hk : x.kind.isEnclosed = true) : x.Enclosed rest := by
  cases h with
  | @lineComment v rest hv hrest =>
    exact .comment (.line (fun c hc => by simpa using List.all_eq_true.mp hv c hc) hrest)
  | markedComment hv => exact .comment (Text.comment_of_markedCommentRest hv)
  | string hv => exact .literal (p := []) (.inl rfl) (quotedRest_eq_length_iff.mp hv)
  | prefixedString hp hv => exact .literal (.inr hp) (quotedRest_eq_length_iff.mp hv)
  | delimited hv => exact .name (quotedRest_eq_length_iff.mp hv)
  | word => simp [isEnclosed_wordKind] at hk
  | punctuation hc =>
    rw [Kind.isEnclosed_of_mark? (punctuationKind?_eq_some_iff.mp hc)] at hk
    exact absurd hk (by decide)
  | _ => exact absurd hk Bool.false_ne_true

/-- What opens a token of a kind is read as a token of this kind. -/
theorem ReadBefore.kind_eq_of_opens {k : Kind} (h : x.ReadBefore rest)
    (ho : Text.Opens k (x.text ++ rest)) : x.kind = k := by
  obtain ⟨-, -, hkind⟩ := h
  generalize x.text ++ rest = t at ho hkind
  cases ho with
  | @literal p t hp =>
    rcases hp with rfl | hp
    · rw [List.nil_append, first_eq_string] at hkind
      exact (Option.some.inj hkind).symm
    · have hlength := literalPrefix_append hp t
      have hne := List.length_pos_iff.mpr hp.ne_nil
      rw [first_eq_prefixedString (by omega)] at hkind
      exact (Option.some.inj hkind).symm
  | name =>
    rw [first_eq_delimited] at hkind
    exact (Option.some.inj hkind).symm
  | lineComment =>
    rw [show Token.lineCommentMark ++ _ = '-' :: '-' :: _ from rfl, first_eq_comment_of_dashes] at hkind
    exact (Option.some.inj hkind).symm
  | markedComment =>
    rw [show Text.openingMark ++ _ = '/' :: '*' :: _ from rfl, first_eq_comment_of_mark] at hkind
    exact (Option.some.inj hkind).symm

/-- A literal, a name and a comment start with what opens them. -/
theorem Enclosed.opens (h : x.Enclosed rest) : Text.Opens x.kind (x.text ++ rest) := by
  cases h with
  | literal hp hw =>
    rw [List.append_assoc]
    cases hw with
    | closed => exact .literal hp
    | unclosed => exact .literal hp
  | name hw =>
    cases hw with
    | closed => exact .name
    | unclosed => exact .name
  | comment hw =>
    cases hw <;> rw [List.append_assoc]
    case line => exact .lineComment
    case closed => exact .markedComment
    case unclosed => exact .markedComment

/-- A lexeme starts with what opens a token of some kind if and only if it is of that kind. -/
theorem ReadBefore.opens_iff {k : Kind} (h : x.ReadBefore rest) :
    Text.Opens k (x.text ++ rest) ↔ x.kind = k ∧ k.isEnclosed = true := by
  refine ⟨fun ho => ⟨h.kind_eq_of_opens ho, ho.isEnclosed⟩, ?_⟩
  rintro ⟨rfl, hk⟩
  exact (h.form.enclosed hk).opens

end Lexeme

/-! ### Tokens of a text -/

namespace Token

/-- Where something opens a string literal, a delimited name or a comment at the place of a token, the
    token is that one, and it ends where it is closed. -/
theorem enclosed_scan {t : Text} {x : Token} (hx : x ∈ scan t) :
    ∃ before rest, t = before ++ (x.text ++ rest) ∧
      x.span = ⟨before.length, (before.length + x.text.length : Nat)⟩ ∧
      (∀ k, Text.Opens k (x.text ++ rest) ↔ x.kind = k ∧ k.isEnclosed = true) ∧
      (x.kind.isEnclosed = true → x.lexeme.Enclosed rest) := by
  obtain ⟨before, rest, ht, hspan, hread⟩ := exists_place hx
  exact ⟨before, rest, ht, hspan, fun _ => hread.opens_iff, hread.form.enclosed⟩

/-- A literal with a prefix that holds what opens a comment, and is closed behind doubled quotes. -/
theorem enclosed_scan_literal :
    let t := "A=Ux'/*''--'''-- a".toList
    let x := placed .string "Ux'/*''--'''".toList 2
    x ∈ scan t ∧ ∃ before rest, t = before ++ (x.text ++ rest) ∧
      x.span = ⟨before.length, (before.length + x.text.length : Nat)⟩ ∧
      (∀ k, Text.Opens k (x.text ++ rest) ↔ x.kind = k ∧ k.isEnclosed = true) ∧
      (x.kind.isEnclosed = true → x.lexeme.Enclosed rest) := by
  intro t x
  have hx : x ∈ scan t := by decide +kernel
  exact ⟨hx, enclosed_scan hx⟩

end Token

end SqlScript
