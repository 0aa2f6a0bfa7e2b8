import SqlScript.Text.Basic
import SqlScript.Unicode.CaseBlank

namespace SqlScript

/-!
# Texts in another case

* `Recased t u` says that `u` is `t` with characters that are not blank replaced by others that
  are not, as when a text is written in another case;
* `Recased.upper` and `Recased.lower` say that the case mappings do no more than that;
* `Recased.isBlank` and `Recased.endsInSpace` say what does not change.
-/

/-- The second text is the first one with characters that are not blank replaced, each by at least
    one that is not blank either. -/
inductive Recased : Text → Text → Prop where
  | nil : Recased [] []
  | same (c : Char) {t u : Text} : Recased t u → Recased (c :: t) (c :: u)
  | other {c : Char} {image t u : Text} : Unicode.isBlank c = false → image ≠ [] →
      (∀ d ∈ image, Unicode.isBlank d = false) → Recased t u → Recased (c :: t) (image ++ u)

namespace Recased

/-- A text is what it is with nothing replaced. -/
theorem refl (t : Text) : Recased t t := by
  induction t with
  | nil => exact nil
  | cons c rest ih => exact same c ih

/-- Characters are replaced in two texts one after the other. -/
theorem append {t u t' u' : Text} (h : Recased t u) (h' : Recased t' u') :
    Recased (t ++ t') (u ++ u') := by
  induction h with
  | nil => exact h'
  | same c _ ih => exact same c ih
  | other hc hne hb _ ih =>
    rw [List.append_assoc]
    exact other hc hne hb ih

/-- One character more is replaced by a mapping that keeps the blanks. -/
theorem cons_of_keepsBlanks {f : Char → List Char} (hf : Unicode.KeepsBlanks f) (c : Char)
    {t u : Text} (h : Recased t u) : Recased (c :: t) (f c ++ u) := by
  cases hc : Unicode.isBlank c with
  | true => rw [hf.1 c hc]; exact same c h
  | false => exact other hc (hf.2 c hc).1 (hf.2 c hc).2 h

/-- The upper case of a text is the text with characters that are not blank replaced. -/
theorem upper (t : Text) : Recased t (Unicode.upper t) := by
  induction t with
  | nil => exact nil
  | cons c rest ih => exact cons_of_keepsBlanks Unicode.keepsBlanks_upperChar c ih

/-- The lower case of a text is the text with characters that are not blank replaced, wherever in a
    word it starts. -/
theorem lowerFrom (inWord : Bool) (t : Text) : Recased t (Unicode.lowerFrom inWord t) := by
  induction t generalizing inWord with
  | nil => exact nil
  | cons c rest ih =>
    unfold Unicode.lowerFrom
    simp only
    split
    · rename_i hc
      subst hc
      split
      · exact other (by decide) (by simp)
          (fun d hd => by rw [List.mem_singleton.mp hd]; decide) (ih _)
      · exact other (by decide) (by simp)
          (fun d hd => by rw [List.mem_singleton.mp hd]; decide) (ih _)
    · exact cons_of_keepsBlanks Unicode.keepsBlanks_lowerChar c (ih _)

/-- The lower case of a whole text is the text with characters that are not blank replaced. -/
theorem lower (t : Text) : Recased t (Unicode.lower t) := lowerFrom false t

/-- A text with characters replaced is blank exactly when the text is. -/
theorem isBlank {t u : Text} (h : Recased t u) : Text.isBlank u = Text.isBlank t := by
  induction h with
  | nil => rfl
  | same c _ ih =>
    simp only [Text.isBlank, List.all_cons] at ih ⊢
    rw [ih]
  | @other c image t u hc hne hb _ ih =>
    have himage : image.all Unicode.isBlank = false := by
      obtain ⟨d, hd⟩ := List.exists_mem_of_ne_nil image hne
      exact List.all_eq_false.mpr ⟨d, hd, by simp [hb d hd]⟩
    simp [Text.isBlank, himage, hc]

/-- A text with characters replaced is empty exactly when the text is. -/
theorem eq_nil_iff {t u : Text} (h : Recased t u) : u = [] ↔ t = [] := by
  cases h <;> simp_all

/-- A text with characters replaced ends in a space exactly when the text does. -/
theorem endsInSpace {t u : Text} (h : Recased t u) : Text.endsInSpace u = Text.endsInSpace t := by
  induction h with
  | nil => rfl
  | @same c t u h ih =>
    have := h.eq_nil_iff
    cases t <;> cases u <;> simp_all [Text.endsInSpace, Text.endsIn, List.getLast?_cons_cons]
  | @other c image t u hc hne hb h ih =>
    have hnil := h.eq_nil_iff
    simp only [Text.endsInSpace, Text.endsIn, List.getLast?_append] at ih ⊢
    cases t with
    | nil =>
      have hu : u = [] := hnil.mpr rfl
      have hlast := List.getLast?_eq_some_getLast hne
      have hm := hb _ (List.getLast_mem hne)
      subst hu
      have hs : Unicode.isBlank ' ' = true := by decide
      have h1 : (image.getLast hne == ' ') = false := beq_false_of_ne fun e => by simp_all
      have h2 : (c == ' ') = false := beq_false_of_ne fun e => by simp_all
      simp [hlast, h1, h2]
    | cons d rest =>
      cases u with
      | nil => simp_all
      | cons e more =>
        have hlast := List.getLast?_eq_some_getLast (List.cons_ne_nil e more)
        rw [hlast] at ih ⊢
        simpa [List.getLast?_cons_cons] using ih

end Recased

end SqlScript
