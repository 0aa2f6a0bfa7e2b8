import SqlScript.Proofs.Layout.Faithful
import SqlScript.Proofs.Layout.Fault
import SqlScript.Proofs.Script.Place

namespace SqlScript

/-!
# The layout in other places

How a script is laid out does not depend on where its tokens stand, and neither does the reason why
it cannot be laid out, but for the place that is told.

* `StructureError.unplaced` — what is wrong, with its place forgotten;
* `Script.write_unplaced` — what is written of lines does not depend on places;
* `Style.format_congr` — texts with the same lexemes are formatted alike.
-/

open Token (faithful_ofLexeme)

/-- What is wrong, with the place forgotten. -/
def StructureError.unplaced : StructureError → StructureError
  | unexpectedClose _ => unexpectedClose 0
  | unclosedOpen _ => unclosedOpen 0
  | emptyBlock _ => emptyBlock 0

/-! ### Lines -/

/-- A piece shows the same wherever its token was in the text. -/
theorem Piece.shown_unplaced (c : Casing) (p : Piece) : (p.map .unplaced).shown c = p.shown c := by
  cases p <;> rfl

/-- What is written of lines does not depend on where their tokens stand. -/
theorem Script.write_unplaced (c : Casing) (eol : Text) (ls : List Line) :
    write c eol (ls.map (Line.mapTokens .unplaced)) = write c eol ls :=
  write_mapTokens (fun _ _ p _ => p.shown_unplaced c) eol

/-! ### Statements -/

namespace Token

/-- What a token does to the parentheses that are open, with all places forgotten. -/
theorem openParens_unplaced (pending : List Token) (t : Token) :
    openParens (pending.map unplaced) t.unplaced
      = ((openParens pending t).map (List.map unplaced)).mapError .unplaced := by
  unfold openParens
  rw [keepsLexemes_unplaced.kind]
  cases t.kind <;> cases pending <;> rfl

/-- What is wrong with the parentheses of tokens whose places are forgotten. -/
theorem parenFault?_unplaced (pending ts : List Token) :
    parenFault? (pending.map unplaced) (ts.map unplaced)
      = (parenFault? pending ts).map .unplaced := by
  induction ts generalizing pending with
  | nil => cases pending <;> rfl
  | cons t ts ih =>
    rw [List.map_cons, parenFault?, parenFault?, openParens_unplaced]
    cases openParens pending t with
    | error e => rfl
    | ok next => exact ih next

end Token

/-! ### Scripts -/

namespace Style

variable (style : Style)

/-- Statements that are moved have the same lines, but for the places of their tokens. -/
theorem exists_layOut_map {style : Style} {f : Token → Token} (hf : Token.KeepsLexemes f)
    {ss : List (Statement × Int)} {ls : List Line} (h : style.layOut none ss = .ok ls) :
    ∃ ls', style.layOut none (ss.map (Prod.map (Statement.map f) id)) = .ok ls' ∧
      ls'.map (Line.mapTokens .unplaced) = ls.map (Line.mapTokens .unplaced) := by
  have hunplaced : (ss.map (Prod.map (Statement.map f) id)).map
        (Prod.map (Statement.map .unplaced) id) = ss.map (Prod.map (Statement.map .unplaced) id) := by
    rw [List.map_map]
    exact List.map_congr_left fun p _ => congrArg (·, p.2) (p.1.map_unplaced_map hf)
  have hlines := layOut_congr faithful_ofLexeme (fun _ => Recased.refl _) style hunplaced
  rw [h] at hlines
  cases hls' : style.layOut none (ss.map (Prod.map (Statement.map f) id)) with
  | error e => simp [hls', Except.toOption] at hlines
  | ok ls' =>
    rw [hls'] at hlines
    exact ⟨ls', rfl, Option.some.inj hlines⟩

/-- What is wrong with a script, with its place forgotten, depends on its lexemes. -/
theorem unplaced_eq_of_layOut {t t' : Text} (h : t.lexemes = t'.lexemes) {e e' : StructureError}
    (he : (Script.ofText t).layOut style = .error e)
    (he' : (Script.ofText t').layOut style = .error e') : e.unplaced = e'.unplaced := by
  have hfault : ∀ {u : Text} {e : StructureError}, (Script.ofText u).layOut style = .error e →
      ((Script.ofText u).statements.map (Statement.map .unplaced)).findSome?
        (fun s => Token.parenFault? [] s.tokens) = some e.unplaced := by
    intro u e hu
    have hlines := (layOut_eq_error_iff _ fun p hp v hv =>
      Token.isParenPlaced_of_mem_scan (Script.mem_scan_of_mem_indentations hp hv)).mp hu
    rw [show ((Script.ofText u).indentations style.spacing.indentWidth).map Prod.fst
      = (Script.ofText u).statements from Script.map_fst_indentations _ u] at hlines
    have hunplaced : (fun s : Statement => Token.parenFault? [] s.tokens) ∘ Statement.map .unplaced
        = Option.map .unplaced ∘ fun s => Token.parenFault? [] s.tokens :=
      funext fun s => Token.parenFault?_unplaced [] s.tokens
    rw [List.findSome?_map, hunplaced, ← List.map_findSome?, hlines, Option.map_some]
  have hsome := hfault he
  rw [Script.map_statements_of_lexemes h, hfault he'] at hsome
  exact (Option.some.inj hsome).symm

/-- Texts with the same lexemes and the same line breaks are formatted alike, or the same is wrong
    with both. -/
theorem format_congr {t t' : Text} (h : t.lexemes = t'.lexemes)
    (hbreak : Text.lineBreak t = Text.lineBreak t') :
    (style.format t).mapError StructureError.unplaced
      = (style.format t').mapError StructureError.unplaced := by
  have hunplaced := Token.keepsLexemes_unplaced.alike
  have hsame := Script.map_indentations hunplaced style.spacing.indentWidth t
  rw [Token.map_unplaced_eq_iff.mpr h, ← Script.map_indentations hunplaced] at hsame
  have hlines := layOut_congr faithful_ofLexeme (fun _ => Recased.refl _) style hsame
  show (((Script.ofText t).layOut style).map _).mapError _
    = (((Script.ofText t').layOut style).map _).mapError _
  change (((Script.ofText t).layOut style).toOption).map _
    = (((Script.ofText t').layOut style).toOption).map _ at hlines
  -- Both have lines, or something is wrong with both.
  cases hls : (Script.ofText t).layOut style with
  | error e =>
    cases hls' : (Script.ofText t').layOut style with
    | error e' => exact congrArg Except.error (style.unplaced_eq_of_layOut h hls hls')
    | ok ls' => simp [hls, hls', Except.toOption] at hlines
  | ok ls =>
    cases hls' : (Script.ofText t').layOut style with
    | error e' => simp [hls, hls', Except.toOption] at hlines
    | ok ls' =>
      rw [hls, hls'] at hlines
      have hmapped := Option.some.inj hlines
      have hwrite := congrArg (Script.write style.casing (Text.lineBreak t)) hmapped
      rw [Script.write_unplaced, Script.write_unplaced] at hwrite
      refine congrArg Except.ok (hwrite.trans ?_)
      rw [hbreak]
      rfl

end Style

end SqlScript
