import Mathlib.Data.List.Chain
import SqlScript.Proofs.Text.Trim
import SqlScript.Text.Recased

namespace SqlScript.Text

/-!
# Line breaks

A line break of two characters is a carriage return with a line feed right behind it. None comes
about where the parts of a text have none and no part starts with a line feed.

* `Text.Apart` — whether two characters make no line break;
* `Text.hasPart_iff_isInfix` — what a part of a text is;
* `Text.hasPart_eq_false_iff` — a text has no line break of two characters when no two neighbours
  make one;
* `Text.isChain_recased` — nor has it in another case.
-/

/-- Whether the two characters are no line break. -/
def Apart (c d : Char) : Prop := ¬(c = '\r' ∧ d = '\n')

/-- What is no carriage return starts no line break of two characters. -/
theorem apart_of_ne_return {c d : Char} (h : c ≠ '\r') : Apart c d := fun hc => h hc.1

/-- What is no line feed ends none. -/
theorem apart_of_ne_feed {c d : Char} (h : d ≠ '\n') : Apart c d := fun hd => h hd.2

/-- A carriage return is blank. -/
theorem ne_return_of_not_isBlank {c : Char} (h : Unicode.isBlank c = false) : c ≠ '\r' := by
  rintro rfl
  exact absurd h (by decide)

/-- A line feed is blank. -/
theorem ne_feed_of_not_isBlank {c : Char} (h : Unicode.isBlank c = false) : c ≠ '\n' := by
  rintro rfl
  exact absurd h (by decide)

/-- The parts of a text are those that are in one piece in it. -/
theorem hasPart_iff_isInfix {p t : Text} : hasPart p t = true ↔ p <:+: t := by
  induction t with
  | nil => rw [hasPart, List.isEmpty_iff, List.infix_nil]
  | cons c t ih =>
    rw [hasPart, Bool.or_eq_true, List.isPrefixOf_iff_prefix, ih, List.infix_cons_iff]

/-- What is a part of the end of a text is a part of the text. -/
theorem hasPart_append_left {p : Text} (v : Text) {w : Text} (h : hasPart p w = true) :
    hasPart p (v ++ w) = true :=
  hasPart_iff_isInfix.mpr ((hasPart_iff_isInfix.mp h).trans (List.suffix_append v w).isInfix)

/-- What a text starts with is a part of it. -/
theorem hasPart_of_prefix (p w : Text) : hasPart p (p ++ w) = true :=
  hasPart_iff_isInfix.mpr (List.prefix_append p w).isInfix

/-- A text has no line break of two characters when no two neighbours make one. -/
theorem hasPart_eq_false_iff (t : Text) :
    hasPart carriageReturnLineFeed t = false ↔ t.IsChain Apart := by
  induction t with
  | nil => exact iff_of_true rfl List.isChain_nil
  | cons c t ih =>
    have hprefix : carriageReturnLineFeed.isPrefixOf (c :: t) = false
        ↔ ∀ d ∈ t.head?, Apart c d := by
      rw [← Bool.not_eq_true, List.isPrefixOf_iff_prefix, carriageReturnLineFeed,
        List.cons_prefix_cons]
      cases t with
      | nil => simp
      | cons d t => simp only [List.cons_prefix_cons, List.nil_prefix, and_true, List.head?_cons,
          Option.mem_def, Option.some.injEq, forall_eq', Apart, eq_comm]
    rw [hasPart, Bool.or_eq_false_iff, hprefix, ih, List.isChain_cons]

/-- There is no such line break without a carriage return. -/
theorem isChain_of_ne_return {t : Text} (h : ∀ c ∈ t, c ≠ '\r') : t.IsChain Apart := by
  induction t with
  | nil => exact List.isChain_nil
  | cons c t ih =>
    rw [List.isChain_cons]
    exact ⟨fun d _ => apart_of_ne_return (h c (by simp)), ih fun d hd => h d (by simp [hd])⟩

/-- A text in another case starts with a line feed only if the text does. -/
theorem head?_of_recased {t u : Text} (h : Recased t u) (hu : u.head? = some '\n') :
    t.head? = some '\n' := by
  cases h with
  | nil => exact hu
  | same c _ => simpa using hu
  | @other c image t u _ hne himage _ =>
    obtain ⟨d, rest, rfl⟩ := List.exists_cons_of_ne_nil hne
    obtain rfl : d = '\n' := by simpa using hu
    exact absurd (himage '\n' (by simp)) (by decide)

/-- Another case makes no line breaks. -/
theorem isChain_recased {t u : Text} (h : Recased t u) (ht : t.IsChain Apart) :
    u.IsChain Apart := by
  induction h with
  | nil => exact ht
  | @same c t u hrest ih =>
    rw [List.isChain_cons] at ht ⊢
    refine ⟨fun d hd => ?_, ih ht.2⟩
    by_cases hfeed : d = '\n'
    · subst hfeed
      exact ht.1 '\n' (head?_of_recased hrest hd)
    · exact apart_of_ne_feed hfeed
  | @other c image t u _ _ himage _ ih =>
    rw [List.isChain_append]
    refine ⟨isChain_of_ne_return fun d hd => ne_return_of_not_isBlank (himage d hd),
      ih (List.isChain_cons.mp ht).2, fun d hd e _ => ?_⟩
    exact apart_of_ne_return (ne_return_of_not_isBlank (himage d (List.mem_of_getLast? hd)))

/-- Trimming makes no line breaks. -/
theorem isChain_trimEnd {t : Text} (h : t.IsChain Apart) : (trimEnd t).IsChain Apart := by
  obtain ⟨g, -, hg⟩ := exists_trimEnd_append t
  rw [hg] at h
  exact (List.isChain_append.mp h).1

end SqlScript.Text
