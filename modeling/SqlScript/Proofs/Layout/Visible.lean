import SqlScript.Proofs.Layout.Gather
import SqlScript.Proofs.Text.Trim

namespace SqlScript

/-!
# What a formatted script shows

Apart from blanks, a formatted script is the script that it was made of, in the chosen cases.

* `Text.visible` — a text without its blanks;
* `Gathering.visible` — what pieces and tokens show;
* `Style.visible_format` — a formatted script shows its tokens in the chosen cases, and a semicolon
  after each statement that is to be ended.
-/

/-! ### Visible text -/

namespace Text

/-- The text without its blanks. -/
def visible (t : Text) : Text := t.filter fun c => !Unicode.isBlank c

/-- Two texts show what one shows and then what the other shows. -/
@[simp] theorem visible_append (t u : Text) : visible (t ++ u) = visible t ++ visible u :=
  List.filter_append ..

/-- A text shows nothing exactly when it is blank. -/
theorem visible_eq_nil_iff {t : Text} : visible t = [] ↔ isBlank t = true := by
  simp [visible, isBlank, List.filter_eq_nil_iff]

/-- Texts one after the other show what each one shows. -/
theorem visible_flatMap {α : Type} (f : α → Text) (l : List α) :
    visible (l.flatMap f) = l.flatMap fun x => visible (f x) :=
  List.filter_flatMap ..

/-- Blanks at the end show nothing. -/
@[simp] theorem visible_trimEnd (t : Text) : visible (trimEnd t) = visible t := by
  obtain ⟨g, hg, ht⟩ := exists_trimEnd_append t
  conv_rhs => rw [ht, visible_append, visible_eq_nil_iff.mpr hg, List.append_nil]

/-- A line break is blank. -/
theorem isBlank_lineBreak (t : Text) : isBlank (lineBreak t) = true := by
  unfold lineBreak
  split <;> decide

/-- A separator that shows nothing is not seen. -/
theorem visible_join {separator : Text} (h : isBlank separator = true) (ts : List Text) :
    visible (join separator ts) = ts.flatMap visible := by
  unfold join
  induction ts with
  | nil => rfl
  | cons t ts ih =>
    cases ts with
    | nil => simp
    | cons u ts =>
      rw [List.intercalate_cons_cons, visible_append, visible_append, visible_eq_nil_iff.mpr h, ih]
      simp

end Text

/-! ### Pieces and lines -/

/-- What pieces and tokens show. -/
def Gathering.visible (c : Casing) : Gathering Char where
  ofPiece p := Text.visible (p.shown c)
  ofToken t := Text.visible (c.apply t)
  ofPiece_of_isBlank p h := by
    rw [Text.visible_eq_nil_iff, ← h]
    exact (p.recased c).isBlank
  ofPiece_cased _ := rfl
  ofPiece_verbatim t ht hk := by
    show Text.visible t.text = Text.visible (c.apply t)
    rcases hk with hk | hk
    · obtain ⟨m, hm⟩ := Option.isSome_iff_exists.mp hk
      rw [c.apply_of_mark? ht hm]
    · rw [c.apply_of_comment hk]
  ofToken_opening span := by
    have happly : c.apply (Node.opening span) = ['('] :=
      c.apply_of_mark? (isMarked_placed rfl _) rfl
    rw [happly]
    rfl
  ofToken_closing span := by
    have happly : c.apply (Node.closing span) = [')'] :=
      c.apply_of_mark? (isMarked_placed rfl _) rfl
    rw [happly]
    rfl

/-- What is gathered from a line is what it shows. -/
theorem Gathering.visible_ofLine (c : Casing) (l : Line) :
    (visible c).ofLine l = Text.visible (l.shown c) :=
  (Text.visible_flatMap _ l).symm

namespace Style

/-- A formatted script shows the tokens of its statements in the chosen cases, in order, with a
    semicolon after each statement that has a token apart from comments and opens no body. -/
theorem visible_format {style : Style} {t r : Text} (h : style.format t = .ok r) :
    Text.visible r = Text.visible ((Script.ofText t).statements.flatMap fun s =>
      s.tokens.flatMap style.casing.apply ++
        if s.significant ≠ [] ∧ s.opener? = none then [';'] else []) := by
  obtain ⟨ls, hls, rfl⟩ := format_eq_ok h
  have hlines : Text.visible (Script.write style.casing (Text.lineBreak t) ls)
      = (Gathering.visible style.casing).ofLines ls := by
    rw [Script.write, Text.visible_join (Text.isBlank_lineBreak _), List.flatMap_map]
    simp only [Text.visible_trimEnd, ← Gathering.visible_ofLine]
    rfl
  rw [hlines, Gathering.script_layOut _ hls, Text.visible_flatMap]
  congr 1
  funext s
  rw [Gathering.ofStatement, Text.visible_append, Text.visible_flatMap]
  congr 1
  simp only [← Statement.isTerminated_iff]
  split <;> rfl

/-- A call with keywords in upper case, and a comment behind it. -/
theorem visible_format_call :
    format ⟨⟨4, false⟩, ⟨.upper, .preserve⟩, true⟩ "call f(a, b); -- x".toList
        = .ok "CALL f(a,b);\n\n-- x".toList ∧
      Text.visible "CALL f(a,b);\n\n-- x".toList
        = Text.visible ((Script.ofText "call f(a, b); -- x".toList).statements.flatMap fun s =>
            s.tokens.flatMap (Casing.apply ⟨.upper, .preserve⟩) ++
              if s.significant ≠ [] ∧ s.opener? = none then [';'] else []) :=
  have h : format ⟨⟨4, false⟩, ⟨.upper, .preserve⟩, true⟩ "call f(a, b); -- x".toList
      = .ok "CALL f(a,b);\n\n-- x".toList := by decide +kernel
  ⟨h, visible_format h⟩

end Style

end SqlScript
