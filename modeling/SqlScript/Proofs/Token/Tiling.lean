import SqlScript.Proofs.Token.Ending

namespace SqlScript

/-!
# Where tokens are found

The tokens of a text lie side by side in it, with nothing but blanks between them, so that the text
can be put together again from the tokens and what is between them.

* `Token.Tiles` — how tokens follow each other in a text, each one behind some blanks;
* `Token.tiles_scanFrom` — the tokens that are read of a text follow each other like this;
* `Token.gaps` — what is between the tokens, before the first one and behind the last one;
* `Text.weave` — texts put together in turns from two sequences;
* `Token.cover_scan` — the tokens of a text take disjoint places of it, in order, and hold what is
  written there; the gaps are blank, no token starts with a blank, and both together are the text.
-/

/-! ### Slices -/

namespace Text

/-- The offsets of a text are the positions that they denote. -/
theorem position_natCast {length n : Nat} (h : n ≤ length) : position length n = n := by
  unfold position
  rw [if_neg (by omega), Int.toNat_natCast, Nat.min_eq_left h]

/-- A part of a text is what is found between its ends. -/
theorem slice_append (before part after : Text) :
    slice (before ++ (part ++ after)) before.length (before.length + part.length : Nat) = part := by
  have hlength : (before ++ (part ++ after)).length
      = before.length + part.length + after.length := by
    simp only [List.length_append]
    omega
  rw [slice, position_natCast (by omega), position_natCast (by omega)]
  show List.take (before.length + part.length - before.length) _ = part
  rw [List.drop_left, Nat.add_sub_cancel_left, List.take_left]

/-- The texts of two sequences in turns, as long as there are any. -/
def weave : List Text → List Text → Text
  | g :: gs, v :: vs => g ++ v ++ weave gs vs
  | gs, vs => gs.flatten ++ vs.flatten

end Text

namespace Token

/-! ### How tokens follow each other -/

/-- How tokens follow each other in a text that starts at an offset: behind some blanks, one of them
    is read in front of the rest of the text, where the others follow. -/
inductive Tiles : Nat → Text → List Token → Prop where
  | blank {offset : Nat} {g : Text} : Text.isBlank g = true → Tiles offset g []
  | token {offset : Nat} {g rest : Text} {x : Lexeme} {ts : List Token} :
      Text.isBlank g = true → x.ReadBefore rest →
      Tiles (offset + g.length + x.text.length) rest ts →
      Tiles offset (g ++ (x.text ++ rest)) (placed x.kind x.text (offset + g.length : Nat) :: ts)

/-- A blank in front of a text moves its tokens. -/
theorem Tiles.cons {offset : Nat} {t : Text} {ts : List Token} (h : Tiles (offset + 1) t ts)
    {c : Char} (hc : Unicode.isBlank c = true) : Tiles offset (c :: t) ts := by
  have hcons : ∀ g : Text, Text.isBlank g = true → Text.isBlank (c :: g) = true := fun g hg => by
    rw [Text.isBlank, List.all_cons, hc, Bool.true_and]
    exact hg
  cases h with
  | blank hg => exact .blank (hcons _ hg)
  | @token _ g rest x ts hg hx hrest =>
    have hlength : offset + 1 + g.length = offset + (c :: g).length := by
      rw [List.length_cons]
      omega
    rw [hlength] at hrest ⊢
    exact .token (hcons _ hg) hx hrest

/-- The tokens of a text follow each other in it. -/
theorem tiles_scanFrom (offset : Nat) (t : Text) : Tiles offset t (scanFrom offset 0 t) := by
  induction hn : t.length using Nat.strongRecOn generalizing offset t with
  | ind n ih =>
    cases t with
    | nil => exact .blank rfl
    | cons c t =>
      subst hn
      cases hc : Unicode.isBlank c with
      | true =>
        have hblank : Text.isBlank [c] = true := by simp [Text.isBlank, hc]
        have hskip := scanFrom_blank_append hblank offset t
        rw [List.singleton_append, List.length_singleton] at hskip
        rw [hskip]
        exact (ih t.length (by simp) (offset + 1) t rfl).cons hc
      | false =>
        obtain ⟨x, rest, hsplit, hx⟩ := exists_readBefore (t := t) hc
        have hpos := List.length_pos_iff.mpr hx.1
        rw [hsplit, scanFrom_append hx]
        have hrest := ih rest.length (by rw [hsplit, List.length_append]; omega)
          (offset + x.text.length) rest rfl
        exact .token (g := []) rfl hx hrest

/-! ### Places -/

/-- Tokens take at least one character, and all of them are in the text. -/
theorem Tiles.bounds {offset : Nat} {t : Text} {ts : List Token} (h : Tiles offset t ts) :
    ∀ u ∈ ts, offset ≤ u.span.start ∧ u.span.start < u.span.stop ∧
      u.span.stop ≤ (offset + t.length : Nat) := by
  induction h with
  | blank => simp
  | @token offset g rest x ts _ hx _ ih =>
    have hpos := List.length_pos_iff.mpr hx.1
    intro u hu
    rcases List.mem_cons.mp hu with rfl | hu
    · simp only [placed, List.length_append]
      omega
    · have := ih u hu
      simp only [List.length_append]
      omega

/-- Each token ends before the next one starts. -/
theorem Tiles.disjoint {offset : Nat} {t : Text} {ts : List Token} (h : Tiles offset t ts) :
    ts.Pairwise fun u v => u.span.stop ≤ v.span.start := by
  induction h with
  | blank => exact List.Pairwise.nil
  | @token offset g rest x ts _ _ hrest ih =>
    refine List.pairwise_cons.mpr ⟨fun v hv => ?_, ih⟩
    have := (hrest.bounds v hv).1
    simp only [placed]
    omega

/-- Tokens hold what is written at their places. -/
theorem Tiles.text_eq_slice {offset : Nat} {t : Text} {ts : List Token} (h : Tiles offset t ts)
    (before : Text) (hbefore : before.length = offset) :
    ∀ u ∈ ts, u.text = Text.slice (before ++ t) u.span.start u.span.stop := by
  induction h generalizing before with
  | blank => simp
  | @token offset g rest x ts _ _ _ ih =>
    subst hbefore
    have hfront : before ++ (g ++ (x.text ++ rest)) = before ++ g ++ (x.text ++ rest) :=
      (List.append_assoc ..).symm
    intro u hu
    rcases List.mem_cons.mp hu with rfl | hu
    · rw [hfront, ← List.length_append]
      exact (Text.slice_append (before ++ g) x.text rest).symm
    · rw [hfront, ← List.append_assoc]
      exact ih _ (by simp only [List.length_append]) u hu

/-- No token starts with a blank. -/
theorem Tiles.starts {offset : Nat} {t : Text} {ts : List Token} (h : Tiles offset t ts) :
    ∀ u ∈ ts, ∀ c ∈ u.text.head?, Unicode.isBlank c = false := by
  induction h with
  | blank => simp
  | token _ hx _ ih => exact List.forall_mem_cons.mpr ⟨hx.not_isBlank_of_mem_head?, ih⟩

/-! ### What lies between tokens -/

/-- What is between the tokens from the offset on, and at last what is behind them. -/
def gaps (t : Text) (offset : Int) : List Token → List Text
  | [] => [t.slice offset t.length]
  | u :: rest => t.slice offset u.span.start :: gaps t u.span.stop rest

/-- What is between the tokens of a text are the blanks that each of them is behind. -/
theorem gaps_cons {before g rest : Text} {x : Lexeme} {ts : List Token} {offset : Nat}
    (hbefore : before.length = offset) :
    gaps (before ++ (g ++ (x.text ++ rest))) offset
        (placed x.kind x.text (offset + g.length : Nat) :: ts)
      = g :: gaps (before ++ g ++ x.text ++ rest) (offset + g.length + x.text.length : Nat) ts := by
  subst hbefore
  rw [gaps]
  simp only [placed]
  rw [Text.slice_append]
  simp

/-- Behind the last token there is the rest of the text. -/
theorem gaps_nil (before g : Text) : gaps (before ++ g) before.length [] = [g] := by
  have := Text.slice_append before g []
  rw [List.append_nil] at this
  rw [gaps, List.length_append, this]

/-- There is nothing but blanks between tokens. -/
theorem Tiles.isBlank_of_mem_gaps {offset : Nat} {t : Text} {ts : List Token}
    (h : Tiles offset t ts) (before : Text) (hbefore : before.length = offset) :
    ∀ g ∈ gaps (before ++ t) offset ts, Text.isBlank g = true := by
  induction h generalizing before with
  | blank hg =>
    subst hbefore
    rw [gaps_nil]
    simpa using hg
  | @token offset g rest x ts hg _ _ ih =>
    rw [gaps_cons hbefore]
    refine List.forall_mem_cons.mpr ⟨hg, ih _ ?_⟩
    simp only [List.length_append, hbefore]

/-- The gaps and the tokens in turns are the text. -/
theorem Tiles.weave_gaps {offset : Nat} {t : Text} {ts : List Token} (h : Tiles offset t ts)
    (before : Text) (hbefore : before.length = offset) :
    Text.weave (gaps (before ++ t) offset ts) (ts.map text) = t := by
  induction h generalizing before with
  | blank =>
    subst hbefore
    rw [gaps_nil]
    simp [Text.weave]
  | @token offset g rest x ts _ _ _ ih =>
    have hrest := ih (before ++ g ++ x.text) (by simp only [List.length_append, hbefore])
    rw [gaps_cons hbefore, List.map_cons, Text.weave, hrest, List.append_assoc]
    rfl

/-! ### Scripts -/

/-- How tokens cover a text. -/
structure Cover (t : Text) (ts : List Token) : Prop where
  /-- Each token takes at least one character, and is in the text. -/
  bounds : ∀ u ∈ ts, 0 ≤ u.span.start ∧ u.span.start < u.span.stop ∧ u.span.stop ≤ t.length
  /-- The tokens are in order, and each one ends before the next one starts. -/
  disjoint : ts.Pairwise fun u v => u.span.stop ≤ v.span.start
  /-- A token holds what is written at its place. -/
  text_eq_slice : ∀ u ∈ ts, u.text = t.slice u.span.start u.span.stop
  /-- There is nothing but blanks before the first token, between tokens and behind the last one. -/
  isBlank_of_mem_gaps : ∀ g ∈ gaps t 0 ts, Text.isBlank g = true
  /-- No token starts with a blank. -/
  starts : ∀ u ∈ ts, ∀ c ∈ u.text.head?, Unicode.isBlank c = false
  /-- The gaps and the tokens in turns are the text. -/
  weave_gaps : Text.weave (gaps t 0 ts) (ts.map text) = t

/-- The tokens of a text cover it. -/
theorem cover_scan (t : Text) : Cover t (scan t) :=
  have h : Tiles 0 t (scan t) := tiles_scanFrom 0 t
  { bounds := fun u hu => by simpa using h.bounds u hu
    disjoint := h.disjoint
    text_eq_slice := h.text_eq_slice [] rfl
    isBlank_of_mem_gaps := h.isBlank_of_mem_gaps [] rfl
    starts := h.starts
    weave_gaps := h.weave_gaps [] rfl }

end Token

end SqlScript
