import Mathlib.Data.List.DropRight
import Mathlib.Tactic.Common
import SqlScript.Text.Basic

namespace SqlScript

/-!
# Blanks at the end of a text

* `Text.dropEnd_eq_rdropWhile` — what is dropped at the end of a text is what `List.rdropWhile` drops;
* `Text.exists_trimEnd_append` — a text is what is left of it when it is trimmed, and blanks;
* `Text.trimEnd_append_of_isBlank` and `Text.trimEnd_append` — of two texts the second one is
  trimmed, and the first one only when the second one is blank.
-/

namespace Text

/-- Two blank texts are blank together. -/
theorem isBlank_append (t u : Text) : isBlank (t ++ u) = (isBlank t && isBlank u) :=
  List.all_append ..

/-- What is dropped at the end of a text is what the library drops from the right. -/
theorem dropEnd_eq_rdropWhile (p : Char → Bool) (t : Text) : dropEnd p t = t.rdropWhile p := rfl

/-- The last character that is left when a text is trimmed is no blank. -/
theorem not_isBlank_of_mem_getLast?_trimEnd {t : Text} :
    ∀ c ∈ (trimEnd t).getLast?, Unicode.isBlank c = false := by
  intro c hc
  rw [trimEnd, dropEnd_eq_rdropWhile] at hc
  obtain ⟨hne, rfl⟩ := List.mem_getLast?_eq_getLast hc
  exact (Bool.not_eq_true _).mp (List.rdropWhile_last_not Unicode.isBlank t hne)

/-- A text is what is left of it when it is trimmed, and the blanks behind that. -/
theorem exists_trimEnd_append (t : Text) : ∃ g, isBlank g = true ∧ t = trimEnd t ++ g :=
  ⟨t.rtakeWhile Unicode.isBlank, List.all_eq_true.mpr fun _ hc => List.mem_rtakeWhile_imp hc,
    List.rdropWhile_append_rtakeWhile.symm⟩

/-- A text that ends with no blank has nothing to be trimmed. -/
theorem trimEnd_eq_self {t : Text} (h : ∀ c ∈ t.getLast?, Unicode.isBlank c = false) :
    trimEnd t = t := by
  rw [trimEnd, dropEnd_eq_rdropWhile, List.rdropWhile_eq_self_iff]
  intro hne
  rw [h _ (List.getLast?_eq_some_getLast hne)]
  decide

/-- Blanks at the end are trimmed. -/
theorem trimEnd_append_of_isBlank (t : Text) {u : Text} (h : isBlank u = true) :
    trimEnd (t ++ u) = trimEnd t := by
  have hall : ∀ c ∈ u.reverse, Unicode.isBlank c = true := fun c hc =>
    List.all_eq_true.mp h c (List.mem_reverse.mp hc)
  rw [trimEnd, dropEnd, List.reverse_append, List.dropWhile_append_of_pos hall]
  rfl

/-- What is in front of something else than blanks is not trimmed. -/
theorem trimEnd_append (t : Text) {u : Text} (h : isBlank u = false) :
    trimEnd (t ++ u) = t ++ trimEnd u := by
  have hne : (u.reverse.dropWhile Unicode.isBlank).isEmpty = false := by
    by_contra hempty
    rw [Bool.not_eq_false, List.isEmpty_iff, List.dropWhile_eq_nil_iff] at hempty
    have : isBlank u = true :=
      List.all_eq_true.mpr fun c hc => hempty c (List.mem_reverse.mpr hc)
    exact absurd (this.symm.trans h) (by decide)
  rw [trimEnd, trimEnd, dropEnd, dropEnd, List.reverse_append, List.dropWhile_append, hne,
    if_neg (by decide), List.reverse_append, List.reverse_reverse]

/-- Nothing is left of a blank text. -/
theorem trimEnd_eq_nil {t : Text} (h : isBlank t = true) : trimEnd t = [] :=
  List.rdropWhile_eq_nil_iff.mpr (List.all_eq_true.mp h)

/-- A text that ends with no blank stays when what comes behind it is trimmed. -/
theorem trimEnd_append_of_getLast? {t : Text} (h : ∀ c ∈ t.getLast?, Unicode.isBlank c = false)
    (u : Text) : trimEnd (t ++ u) = t ++ trimEnd u := by
  by_cases hu : isBlank u = true
  · rw [trimEnd_append_of_isBlank t hu, trimEnd_eq_self h, trimEnd_eq_nil hu, List.append_nil]
  · exact trimEnd_append t (by simpa using hu)

/-- Trimming a text that shows something keeps its first character. -/
theorem head?_trimEnd {t : Text} (h : isBlank t = false) : (trimEnd t).head? = t.head? := by
  obtain ⟨g, hg, ht⟩ := exists_trimEnd_append t
  cases htrim : trimEnd t with
  | nil =>
    rw [htrim, List.nil_append] at ht
    rw [← ht] at hg
    exact absurd (hg.symm.trans h) (by decide)
  | cons c u =>
    conv_rhs => rw [ht, htrim]
    rfl

/-- Trimming twice is trimming. -/
@[simp] theorem trimEnd_trimEnd (t : Text) : trimEnd (trimEnd t) = trimEnd t :=
  List.rdropWhile_idempotent Unicode.isBlank t

end Text

end SqlScript
