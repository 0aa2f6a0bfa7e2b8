import SqlScript.Proofs.Layout.Place
import SqlScript.Proofs.Layout.Reread
import SqlScript.Proofs.Token.Tiling

namespace SqlScript

open Unicode

/-!
# Other blanks between tokens

The tokens of a text are read again when they are written with any blanks between them, and a script
says the same with them.

* `Token.Separated` — whether blanks keep tokens apart;
* `Token.Tiles.lexemes_weave` — tokens that are kept apart are read again;
* `Script.agree_weave` — a script with other blanks says the same, and is formatted alike.
-/

namespace Token

/-- Whether the texts can be written before the tokens, between them and behind them, so that these
    are read again. -/
@[mk_iff] structure Separated (ts : List Token) (gs : List Text) : Prop where
  /-- There is one text for each token, and one for the end. -/
  length : gs.length = ts.length + 1
  blank : ∀ g ∈ gs, Text.isBlank g = true
  /-- Two tokens that follow each other have something between them. -/
  between : ∀ g ∈ gs.tail.dropLast, g ≠ []
  /-- Blanks behind a comment that ends with its line start with a line break. -/
  comment : ∀ p ∈ ts.zip gs.tail, p.1.isLineComment = true → p.2.head?.all endsLine = true
  /-- There are none behind a last token that is not closed. -/
  unclosed : ∀ u ∈ ts.getLast?, u.lexeme.isOpen = true → gs.getLast? = some []

instance (ts : List Token) (gs : List Text) : Decidable (Separated ts gs) :=
  decidable_of_iff' _ (separated_iff ts gs)

variable {u : Token} {ts : List Token} {g h : Text} {gs : List Text}

/-- Where there are no tokens, there is one text for the end. -/
theorem Separated.eq_singleton (hs : Separated [] gs) : ∃ g, gs = [g] :=
  List.length_eq_one_iff.mp hs.length

/-- There is a text before each token, and one behind it. -/
theorem Separated.eq_cons_cons (hs : Separated (u :: ts) gs) : ∃ g h rest, gs = g :: h :: rest := by
  obtain ⟨g, gs, rfl⟩ := List.exists_cons_of_length_eq_add_one hs.length
  obtain ⟨h, gs, rfl⟩ := List.exists_cons_of_length_eq_add_one (Nat.succ.inj hs.length)
  exact ⟨g, h, gs, rfl⟩

/-- Behind the first token, the other ones are kept apart. -/
theorem Separated.tail (hs : Separated (u :: ts) (g :: h :: gs)) : Separated ts (h :: gs) where
  length := Nat.succ.inj hs.length
  blank k hk := hs.blank k (List.mem_cons_of_mem g hk)
  between k hk := by
    refine hs.between k ?_
    show k ∈ (h :: gs).dropLast
    cases gs with
    | nil => exact absurd hk (by simp)
    | cons => exact List.mem_cons_of_mem h hk
  comment p hp := hs.comment p (List.mem_cons_of_mem _ hp)
  unclosed v hv hopen := by
    refine (List.getLast?_cons_cons ..).symm.trans (hs.unclosed v ?_ hopen)
    rw [List.getLast?_cons, Option.mem_def.mp hv]
    rfl

/-- Only the last token of a text can be one that is not closed. -/
theorem Tiles.isOpen_eq_false {offset : Nat} {rest : Text} {x : Lexeme} {v : Token}
    (hx : x.ReadBefore rest) (hrest : Tiles offset rest (v :: ts)) : x.isOpen = false := by
  by_contra hopen
  rw [Bool.not_eq_false] at hopen
  have hbounds := hrest.bounds v (by simp)
  rw [hx.eq_nil_of_isOpen hopen, List.length_nil] at hbounds
  omega

/-- A token admits the blanks behind it. -/
theorem Separated.admits {offset : Nat} {rest : Text} (hs : Separated (u :: ts) (g :: h :: gs))
    (hread : u.lexeme.ReadBefore rest) (hrest : Tiles offset rest ts) :
    ∀ c ∈ h.head?, u.lexeme.admits c = true := by
  intro c hc
  have hblank : isBlank c = true :=
    List.all_eq_true.mp (hs.blank h (by simp)) c (List.mem_of_mem_head? hc)
  have hclosed : u.lexeme.isOpen = false := by
    cases ts with
    | cons v vs => exact hrest.isOpen_eq_false hread
    | nil =>
      by_contra hopen
      obtain ⟨k, hk⟩ := hs.tail.eq_singleton
      obtain ⟨rfl, rfl⟩ := List.cons.inj hk
      have hlast := hs.unclosed u rfl (Bool.not_eq_false _ ▸ hopen)
      obtain rfl : h = [] := Option.some.inj hlast
      exact absurd hc (by simp)
  by_cases hcomment : u.lexeme.isLineComment = true
  · have hends := hs.comment (u, h) (List.mem_cons_self ..) hcomment
    rw [Option.mem_def.mp hc] at hends
    obtain ⟨v, hv⟩ := Lexeme.exists_of_isLineComment hcomment
    rw [hv]
    simpa [Lexeme.admits, isLineComment_dashes] using hends
  · rw [Bool.not_eq_true] at hcomment
    have hboundary : isBoundary c = true := by rw [isBoundary, hblank, Bool.true_or]
    refine Lexeme.admits_of_isBoundary hclosed hcomment hboundary (fun _ => ?_) fun _ => ?_ <;>
    · -- Neither a dot nor a colon is blank.
      rintro rfl
      exact absurd hblank (by decide)

/-- Tokens of a text that are written with blanks between them are read again. -/
theorem Tiles.lexemes_weave {offset : Nat} {t : Text} {gs : List Text} (htiles : Tiles offset t ts)
    (hs : Separated ts gs) : (Text.weave gs (ts.map text)).lexemes = ts.map lexeme := by
  induction htiles generalizing gs with
  | blank _ =>
    obtain ⟨g, rfl⟩ := hs.eq_singleton
    have hskip := Text.lexemes_blank_append (hs.blank g (by simp)) []
    simpa [Text.weave, Text.lexemes_nil] using hskip
  | @token offset g rest x ts _ hx hrest ih =>
    obtain ⟨g', h, gs, rfl⟩ := hs.eq_cons_cons
    have hbehind : x.ReadBefore (Text.weave (h :: gs) (ts.map text)) := by
      refine hx.of_admits fun c hc => hs.admits hx hrest c ?_
      cases ts with
      | nil =>
        obtain ⟨k, hk⟩ := hs.tail.eq_singleton
        obtain ⟨rfl, rfl⟩ := List.cons.inj hk
        simpa [Text.weave] using hc
      | cons v ts =>
        -- There is something between this token and the next one.
        obtain ⟨_, k, gs, hgs⟩ := hs.tail.eq_cons_cons
        obtain ⟨rfl, rfl⟩ := List.cons.inj hgs
        have hne : h ≠ [] := hs.between h (by simp)
        obtain ⟨d, h, rfl⟩ := List.exists_cons_of_ne_nil hne
        exact hc
    rw [List.map_cons, List.map_cons, Text.weave, List.append_assoc,
      Text.lexemes_blank_append (hs.blank g' (by simp))]
    exact (Text.lexemes_append hbehind).trans (congrArg (x :: ·) (ih hs.tail))

end Token

namespace Script

open Text (hasPart carriageReturnLineFeed)

/-- A script whose tokens are written with other blanks between them says the same, and is formatted
    alike in every style when it has line breaks of two characters exactly if the script has some. -/
theorem agree_weave {t r : Text} {gs : List Text} (hs : Token.Separated (Token.scan t) gs)
    (hr : r = Text.weave gs ((Token.scan t).map Token.text)) :
    Agree (ofText r) (ofText t) ∧
      (hasPart carriageReturnLineFeed r = hasPart carriageReturnLineFeed t → ∀ style : Style,
        (style.format r).mapError StructureError.unplaced
          = (style.format t).mapError StructureError.unplaced) := by
  have hlexemes : r.lexemes = t.lexemes := by
    rw [hr]
    exact (Token.tiles_scanFrom 0 t).lexemes_weave hs
  refine ⟨agree_of_lexemes hlexemes, fun hpart style => style.format_congr hlexemes ?_⟩
  rw [Text.lineBreak, hpart, Text.lineBreak]

/-- A number in front of a comment, and a literal that is not closed, with other blanks. -/
theorem agree_weave_lines :
    Token.Separated (Token.scan "begin a=1.e5--c\n'it''s".toList)
        (["\t", "\n", " ", " ", "\x0b", "\r\r", ""].map String.toList) ∧
      Agree (ofText "\tbegin\na = 1.e5\x0b--c\r\r'it''s".toList)
        (ofText "begin a=1.e5--c\n'it''s".toList) ∧
      ∀ style : Style,
        (style.format "\tbegin\na = 1.e5\x0b--c\r\r'it''s".toList).mapError StructureError.unplaced
          = (style.format "begin a=1.e5--c\n'it''s".toList).mapError StructureError.unplaced :=
  have hs : Token.Separated (Token.scan "begin a=1.e5--c\n'it''s".toList)
      (["\t", "\n", " ", " ", "\x0b", "\r\r", ""].map String.toList) := by decide +kernel
  have h := agree_weave hs (r := "\tbegin\na = 1.e5\x0b--c\r\r'it''s".toList) (by decide +kernel)
  ⟨hs, h.1, h.2 (by decide +kernel)⟩

end Script

end SqlScript
