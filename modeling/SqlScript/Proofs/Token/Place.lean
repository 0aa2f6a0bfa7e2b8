import SqlScript.Proofs.Token.Lexeme

namespace SqlScript

/-!
# The places of tokens

Tokens of different texts are compared with their places forgotten, and those of a text that is part
of another one are found there further behind.

* `Token.ofLexeme` — a token with its place forgotten;
* `Token.shift` — a token at a place that is some characters further behind;
* `Token.KeepsLexemes` — whether a mapping of tokens changes no more than their places;
* `Token.scanFrom_add` — the tokens of a text that starts further behind.
-/

/-- The span that is `n` characters further behind. -/
def Span.shift (n : Int) (s : Span) : Span := ⟨s.start + n, s.stop + n⟩

namespace Token

/-- The token that a lexeme is, with its place forgotten. -/
def ofLexeme (x : Lexeme) : Token := ⟨x.kind, x.text, 0, 0⟩

/-- Different lexemes make different tokens. -/
theorem ofLexeme_injective {x y : Lexeme} (h : ofLexeme x = ofLexeme y) : x = y := by
  obtain ⟨k, u⟩ := x
  obtain ⟨k', u'⟩ := y
  simpa [ofLexeme] using h

/-- The token with its place forgotten. -/
def unplaced (t : Token) : Token := .ofLexeme t.lexeme

/-- The token that is `n` characters further behind. -/
def shift (n : Int) (t : Token) : Token := { t with span := t.span.shift n }

/-- Whether the mapping changes no more than the places of tokens. -/
def KeepsLexemes (f : Token → Token) : Prop := ∀ t, (f t).lexeme = t.lexeme

/-- What forgets places changes nothing else. -/
theorem keepsLexemes_unplaced : KeepsLexemes unplaced := fun _ => rfl

/-- What moves tokens changes nothing else. -/
theorem keepsLexemes_shift (n : Int) : KeepsLexemes (shift n) := fun _ => rfl

section

variable {f : Token → Token}

/-- A mapping that changes no more than places keeps the kind of a token. -/
theorem KeepsLexemes.kind (hf : KeepsLexemes f) (t : Token) : (f t).kind = t.kind :=
  congrArg Lexeme.kind (hf t)

/-- A mapping that changes no more than places keeps the text of a token. -/
theorem KeepsLexemes.text (hf : KeepsLexemes f) (t : Token) : (f t).text = t.text :=
  congrArg Lexeme.text (hf t)

/-- A mapping that changes no more than places keeps the word that a token is. -/
theorem KeepsLexemes.key (hf : KeepsLexemes f) (t : Token) : (f t).key = t.key := by
  rw [Token.key, hf.text, Token.key]

/-- Tokens have the same lexemes when they are mapped like this. -/
theorem KeepsLexemes.map_lexeme (hf : KeepsLexemes f) (ts : List Token) :
    (ts.map f).map lexeme = ts.map lexeme := by
  rw [List.map_map]
  exact List.map_congr_left fun t _ => hf t

end

/-- Tokens with the same lexemes are the same with their places forgotten. -/
theorem map_unplaced_eq_iff {ts us : List Token} :
    ts.map unplaced = us.map unplaced ↔ ts.map lexeme = us.map lexeme := by
  have hmap : ∀ vs : List Token, vs.map unplaced = (vs.map lexeme).map ofLexeme := fun vs => by
    rw [List.map_map]
    rfl
  rw [hmap, hmap, List.map_inj_right fun _ _ => ofLexeme_injective]

/-- What is moved there and back stays where it is. -/
theorem shift_neg_shift (n : Int) (t : Token) : (t.shift n).shift (-n) = t := by
  obtain ⟨kind, text, start, stop⟩ := t
  simp only [shift, Span.shift, Token.mk.injEq, Span.mk.injEq, true_and]
  omega

/-- Tokens that are moved there and back stay where they are. -/
theorem map_shift_neg_shift (n : Int) (ts : List Token) :
    (ts.map (shift n)).map (shift (-n)) = ts := by
  rw [List.map_map, show shift (-n) ∘ shift n = id from funext (shift_neg_shift n)]
  exact List.map_id ts

/-- The tokens of a text that starts further behind are further behind. -/
theorem scanFrom_add (offset n passed : Nat) (t : Text) :
    scanFrom (offset + n) passed t = (scanFrom offset passed t).map (shift n) := by
  induction t generalizing offset passed with
  | nil => rfl
  | cons c rest ih =>
    have hnext : offset + n + 1 = offset + 1 + n := by omega
    cases passed with
    | succ m =>
      rw [scanFrom, scanFrom, hnext]
      exact ih (offset + 1) m
    | zero =>
      simp only [scanFrom, List.map_append, hnext, ih (offset + 1)]
      congr 1
      cases (LexicalRule.first (c :: rest)).kind? _ with
      | none => rfl
      | some kind =>
        simp only [Option.map_some, Option.toList_some, List.map_cons, List.map_nil, placed, shift,
          Span.shift, Int.natCast_add]
        congr 3
        omega

end Token

end SqlScript
