import SqlScript.Proofs.Layout.Faithful
import SqlScript.Proofs.Layout.Gather
import SqlScript.Proofs.Script.Folded

namespace SqlScript

/-!
# The layout in another case

Scripts whose tokens are the same but for the case of words have the same lines, and the same text
is written of them when all words are written in upper case.

* `Casing.upper` — all words in upper case;
* `Script.shown_map_folded` — a piece of a script is written as the one with its word in upper case;
* `Script.agreeButCase_and_format` — scripts whose tokens are the same but for the case of words say
  the same, and are formatted alike in upper case.
-/

/-- All words in upper case. -/
def Casing.upper : Casing := ⟨.upper, .upper⟩

/-- In upper case, a word is written as the one in upper case is. -/
theorem Casing.apply_folded (t : Token) : Casing.upper.apply t.folded = Casing.upper.apply t := by
  have happly : ∀ u : Token, Casing.upper.apply u
      = if u.kind.keepsCase then u.text else Unicode.upper u.text := fun u => by
    unfold Casing.apply
    split
    · rfl
    · exact ite_self _
  rw [happly, happly, show t.folded.kind = t.kind from rfl]
  cases hk : t.kind.isBareWord with
  | false => rw [Token.text_folded hk]
  | true =>
    have hcase : t.kind.keepsCase = false := by
      cases hkind : t.kind <;> simp_all [Kind.isBareWord, Kind.keepsCase]
    rw [hcase]
    exact Token.keepsKeys_folded.key t

/-- A text without anything to show is its own upper case. -/
theorem Unicode.upper_of_isBlank {t : Text} (h : Text.isBlank t = true) : upper t = t := by
  refine upper_eq_self fun d hd => ?_
  exact keepsBlanks_upperChar.1 d (List.all_eq_true.mp h d hd)

/-- In upper case, a piece of a script is written as the one with its word in upper case. -/
theorem Script.shown_map_folded {style : Style} {t : Text} {ls : List Line}
    (h : (ofText t).layOut style = .ok ls) :
    ∀ l ∈ ls, ∀ p ∈ l, (p.map Token.folded).shown .upper = p.shown .upper := by
  have hcased : ∀ u : Token, ((Piece.cased u).map .folded).shown .upper
      = (Piece.cased u).shown .upper := Casing.apply_folded
  have hall := isBlank_or_of_layOut
    (P := fun p => (p.map .folded).shown .upper == p.shown .upper)
    (fun u hmarked hk => ?_) (fun span => ?_) (fun span => ?_) (beq_self_eq_true [';'])
    (fun u _ => beq_iff_eq.mpr (hcased u)) h
  · intro l hl p hp
    rcases hall l hl p hp with hblank | hshown
    · cases p with
      | cased u => exact hcased u
      | verbatim u =>
        show u.folded.text = u.text
        unfold Token.folded
        split
        · exact Unicode.upper_of_isBlank hblank
        · rfl
      | _ => rfl
    · exact beq_iff_eq.mp hshown
  · -- What is written as it is has no case.
    have hword : u.kind.isBareWord = false := by
      cases hkind : u.kind <;> simp_all [Kind.isBareWord, Kind.mark?]
    have hverbatim : ((Piece.verbatim u).map .folded).shown .upper
        = (Piece.verbatim u).shown .upper := Token.text_folded hword
    rw [beq_iff_eq.mpr hverbatim, beq_iff_eq.mpr (hcased u)]
  · exact (beq_iff_eq.mpr (hcased (Node.opening span))).trans (beq_self_eq_true ['(']).symm
  · exact (beq_iff_eq.mpr (hcased (Node.closing span))).trans (beq_self_eq_true [')']).symm

/-- In upper case, a script is formatted as its lines with all words in upper case are written. -/
theorem Style.toOption_format {style : Style} (hcasing : style.casing = .upper) (t : Text) :
    (style.format t).toOption = ((((Script.ofText t).layOut style).toOption.map
      (List.map (Line.mapTokens .folded))).map (Script.write .upper (Text.lineBreak t))) := by
  have hformat : style.format t
      = ((Script.ofText t).layOut style).map (Script.write .upper (Text.lineBreak t)) := by
    rw [← hcasing]
    rfl
  rw [hformat]
  cases hls : (Script.ofText t).layOut style with
  | error e => rfl
  | ok ls => exact congrArg some (Script.write_mapTokens (Script.shown_map_folded hls) _).symm

namespace Script

/-- Scripts whose tokens are the same but for the case of words say the same. Where both have line
    breaks of two characters, or neither has, they are formatted alike with all words in upper case,
    or neither of them can be formatted. -/
theorem agreeButCase_and_format {t t' : Text}
    (h : List.Forall₂ Token.SameButCase (Token.scan t) (Token.scan t')) :
    AgreeButCase (ofText t) (ofText t') ∧ ∀ style : Style, style.casing = .upper →
      Text.hasPart Text.carriageReturnLineFeed t = Text.hasPart Text.carriageReturnLineFeed t' →
      (style.format t).toOption = (style.format t').toOption := by
  refine ⟨agreeButCase_of_sameButCase h, fun style hcasing hbreak => ?_⟩
  have halike := Token.keepsKeys_folded.alike
  have hsame := map_indentations halike style.spacing.indentWidth t
  rw [Token.map_folded_of_sameButCase h, ← map_indentations halike] at hsame
  have hlines := Style.layOut_congr Token.faithful_folded Token.recased_folded style hsame
  have heol : Text.lineBreak t = Text.lineBreak t' := by
    rw [Text.lineBreak, hbreak, Text.lineBreak]
  rw [Style.toOption_format hcasing, Style.toOption_format hcasing, heol]
  exact congrArg (Option.map _) hlines

/-- A name with a sharp s, which has one letter more in upper case. -/
theorem agreeButCase_and_format_sharp :
    let t := "alter Table straße".toList
    let t' := "ALTER table Strasse".toList
    let style : Style := ⟨⟨4, false⟩, .upper, false⟩
    List.Forall₂ Token.SameButCase (Token.scan t) (Token.scan t') ∧
      AgreeButCase (ofText t) (ofText t') ∧ (ofText t).changedNames = ["STRASSE".toList] ∧
      (style.format t).toOption = (style.format t').toOption ∧
      style.format t' = .ok "ALTER TABLE STRASSE;".toList := by
  intro t t' style
  have h : List.Forall₂ Token.SameButCase (Token.scan t) (Token.scan t') := by decide +kernel
  obtain ⟨hagree, hformat⟩ := agreeButCase_and_format h
  exact ⟨h, hagree, by decide +kernel, hformat style rfl (by decide +kernel), by decide +kernel⟩

end Script

end SqlScript
