import SqlScript.Proofs.Token.Context
import SqlScript.Proofs.Token.Place
import SqlScript.Proofs.Token.Tiling

namespace SqlScript.Token

/-!
# The tokens of a part of a text

Tokens that follow each other in a text are read again where the text from the first one to the last
one stands alone, and a text that ends with a semicolon is read as before when another text follows.

* `Tiles.exists_drop` and `Tiles.exists_take` — how the last tokens of a text, and the first ones,
  follow each other in a part of it;
* `Tiles.scanFrom_eq` — tokens that follow each other in a text are those that are read of it;
* `exists_place` — the place of a token;
* `exists_part` — the part of a text that holds some of its tokens;
* `scan_append_of_semicolon` — the tokens of a text behind a semicolon.
-/

/-! ### Parts -/

/-- The tokens that follow each other in a text are those that are read of it. -/
theorem Tiles.scanFrom_eq {offset : Nat} {t : Text} {ts : List Token} (h : Tiles offset t ts) :
    scanFrom offset 0 t = ts := by
  induction h with
  | @blank offset g hg =>
    have hskip := scanFrom_blank_append hg offset []
    rw [List.append_nil] at hskip
    rw [hskip]
    rfl
  | @token offset g rest x ts hg hx _ ih =>
    rw [scanFrom_blank_append hg, scanFrom_append hx, ih]

/-- The last tokens of a text follow each other behind the other ones. -/
theorem Tiles.exists_drop {offset : Nat} {t : Text} {front ts : List Token}
    (h : Tiles offset t (front ++ ts)) :
    ∃ before after, t = before ++ after ∧ Tiles (offset + before.length) after ts := by
  induction front generalizing offset t with
  | nil => exact ⟨[], t, rfl, h⟩
  | cons u front ih =>
    rw [List.cons_append] at h
    cases h with
    | @token _ g rest x _ hg hx hrest =>
      obtain ⟨before, after, rfl, hafter⟩ := ih hrest
      refine ⟨g ++ (x.text ++ before), after, by simp, ?_⟩
      have hlength : offset + (g ++ (x.text ++ before)).length
          = offset + g.length + x.text.length + before.length := by
        simp only [List.length_append]
        omega
      rw [hlength]
      exact hafter

/-- The first token of a text is found behind some blanks. -/
theorem Tiles.exists_head {offset : Nat} {t : Text} {u : Token} {ts : List Token}
    (h : Tiles offset t (u :: ts)) :
    ∃ g rest, Text.isBlank g = true ∧ t = g ++ (u.text ++ rest) ∧ u.lexeme.ReadBefore rest ∧
      u = placed u.kind u.text (offset + g.length : Nat) ∧
      Tiles (offset + g.length + u.text.length) rest ts := by
  cases h with
  | @token _ g rest x _ hg hx hrest => exact ⟨g, rest, hg, rfl, hx, rfl, hrest⟩

/-- Every token of a text is read at its place, in front of the rest of the text. -/
theorem exists_place {t : Text} {x : Token} (hx : x ∈ scan t) :
    ∃ before rest, t = before ++ (x.text ++ rest) ∧
      x.span = ⟨before.length, (before.length + x.text.length : Nat)⟩ ∧ x.lexeme.ReadBefore rest := by
  obtain ⟨front, back, hsplit⟩ := List.append_of_mem hx
  have htiles : Tiles 0 t (front ++ x :: back) := hsplit ▸ tiles_scanFrom 0 t
  obtain ⟨before, behind, rfl, hbehind⟩ := htiles.exists_drop
  obtain ⟨g, rest, -, rfl, hread, hplace, -⟩ := hbehind.exists_head
  refine ⟨before ++ g, rest, (List.append_assoc ..).symm, ?_, hread⟩
  rw [hplace, List.length_append, Nat.zero_add]
  rfl

/-- The first tokens of a text follow each other in front of the other ones. -/
theorem Tiles.exists_take {offset : Nat} {t : Text} {ts back : List Token} (hne : ts ≠ [])
    (h : Tiles offset t (ts ++ back)) :
    ∃ part after, t = part ++ after ∧ Tiles offset part ts ∧
      (ts.getLast hne).span.stop = (offset + part.length : Nat) := by
  induction ts generalizing offset t with
  | nil => exact absurd rfl hne
  | cons u ts ih =>
    rw [List.cons_append] at h
    obtain ⟨g, rest, hg, rfl, hread, hplace, hrest⟩ := h.exists_head
    by_cases hnil : ts = []
    · subst hnil
      refine ⟨g ++ (u.text ++ []), rest, by simp, ?_, ?_⟩
      · rw [hplace]
        exact .token hg hread.proper (.blank rfl)
      · rw [List.getLast_singleton, hplace]
        simp only [placed, List.length_append, List.length_nil]
        omega
    · -- What follows is cut off behind the last one of the tokens.
      obtain ⟨part, after, rfl, hpart, hstop⟩ := ih hnil hrest
      refine ⟨g ++ (u.text ++ part), after, by simp, ?_, ?_⟩
      · rw [hplace]
        exact .token hg hread.of_append hpart
      · rw [List.getLast_cons hnil, hstop]
        simp only [List.length_append]
        omega

/-- Tokens that follow each other in a text are those that are read of the part of the text from the
    start of the first one to the end of the last one. -/
theorem exists_part {t : Text} {front part back : List Token} (hpart : part ≠ [])
    (h : scan t = front ++ (part ++ back)) :
    ∃ before inner after : Text, t = before ++ (inner ++ after) ∧
      (part.head hpart).span.start = before.length ∧
      (part.getLast hpart).span.stop = (before.length + inner.length : Nat) ∧
      part = (scan inner).map (shift before.length) := by
  have htiles : Tiles 0 t (front ++ (part ++ back)) := h ▸ tiles_scanFrom 0 t
  obtain ⟨before, behind, rfl, hbehind⟩ := htiles.exists_drop
  rw [Nat.zero_add] at hbehind
  obtain ⟨inner, after, rfl, hinner, hstop⟩ := hbehind.exists_take hpart
  -- The blanks in front of the first token belong to what is before it.
  obtain ⟨u, us, rfl⟩ := List.exists_cons_of_ne_nil hpart
  obtain ⟨g, rest, hg, rfl, hread, hplace, hrest⟩ := hinner.exists_head
  refine ⟨before ++ g, u.text ++ rest, after, by simp, ?_, ?_, ?_⟩
  · rw [List.head_cons, hplace, List.length_append]
    rfl
  · rw [hstop]
    simp only [List.length_append]
    omega
  · have hshift := scanFrom_add 0 (before ++ g).length 0 (u.text ++ rest)
    rw [Nat.zero_add] at hshift
    have htiles : Tiles (before ++ g).length (u.text ++ rest) (u :: us) := by
      rw [hplace, List.length_append]
      exact .token (g := []) (x := u.lexeme) rfl hread hrest
    rw [scan, ← hshift, htiles.scanFrom_eq]

/-! ### Texts behind a semicolon -/

/-- The text of a semicolon. -/
theorem text_of_semicolon {u : Token} {rest : Text} (h : u.lexeme.ReadBefore rest)
    (hk : u.kind = .semicolon) : u.text = [';'] :=
  h.form.text_of_mark? (x := u.lexeme) (c := ';') (by
    show u.kind.mark? = _
    rw [hk]
    rfl)

/-- The tokens of a text that ends with a semicolon are read in front of another text. -/
theorem Tiles.append_of_semicolon {offset : Nat} {t : Text} {ts : List Token} {semicolon : Token}
    (h : Tiles offset t (ts ++ [semicolon])) (hk : semicolon.kind = .semicolon) (u : Text) :
    Tiles offset (t ++ u) (ts ++ semicolon :: scanFrom (offset + t.length) 0 u) := by
  induction ts generalizing offset t with
  | nil =>
    rw [List.nil_append] at h ⊢
    obtain ⟨g, rest, hg, rfl, hread, hplace, hrest⟩ := h.exists_head
    have hblank : Text.isBlank rest = true := by
      cases hrest with
      | blank hrest => exact hrest
    have hbehind := tiles_scanFrom (offset + g.length + semicolon.text.length) (rest ++ u)
    rw [scanFrom_blank_append hblank] at hbehind
    have hlength : offset + (g ++ (semicolon.text ++ rest)).length
        = offset + g.length + semicolon.text.length + rest.length := by
      simp only [List.length_append]
      omega
    have hadmits : semicolon.lexeme.ReadBefore (rest ++ u) :=
      hread.of_admits fun c _ => by simp [Lexeme.admits, lexeme, hk]
    rw [hlength, hplace, List.append_assoc, List.append_assoc]
    exact .token hg hadmits hbehind
  | cons v ts ih =>
    rw [List.cons_append] at h ⊢
    obtain ⟨g, rest, hg, rfl, hread, hplace, hrest⟩ := h.exists_head
    have hbehind := ih hrest
    -- The semicolon stands somewhere behind the token.
    obtain ⟨before, after, rfl, hafter⟩ := hrest.exists_drop
    obtain ⟨g', rest', -, rfl, hsemicolon, -⟩ := hafter.exists_head
    have htext := text_of_semicolon hsemicolon hk
    have hread' : v.lexeme.ReadBefore (before ++ (g' ++ (semicolon.text ++ rest')) ++ u) := by
      rw [htext] at hread ⊢
      have hsplit : ∀ w : Text, before ++ (g' ++ ([';'] ++ w)) = before ++ g' ++ ';' :: w :=
        fun w => by simp
      rw [hsplit] at hread ⊢
      rw [List.append_assoc, List.cons_append]
      exact hread.of_semicolon _
    have hlength : offset + (g ++ (v.text ++ (before ++ (g' ++ (semicolon.text ++ rest'))))).length
        = offset + g.length + v.text.length
          + (before ++ (g' ++ (semicolon.text ++ rest'))).length := by
      simp only [List.length_append]
      omega
    rw [hlength, List.append_assoc g, List.append_assoc v.text, hplace]
    exact .token hg hread' hbehind

/-- A text that ends with a semicolon is read as before when another text follows, and so is the
    other text. -/
theorem scan_append_of_semicolon {t : Text} {ts : List Token} {semicolon : Token}
    (h : scan t = ts ++ [semicolon]) (hk : semicolon.kind = .semicolon) (u : Text) :
    scan (t ++ u) = scan t ++ (scan u).map (shift t.length) := by
  have htiles : Tiles 0 t (ts ++ [semicolon]) := h ▸ tiles_scanFrom 0 t
  have hshift := scanFrom_add 0 t.length 0 u
  rw [h, scan, (htiles.append_of_semicolon hk u).scanFrom_eq, hshift, List.append_assoc]
  rfl

end SqlScript.Token
