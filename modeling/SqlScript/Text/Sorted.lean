import SqlScript.Text.Basic

namespace SqlScript.Text

/-!
# Sets of texts

A set of texts is listed in ascending order, where texts are compared code point by code point.

* `precedes` is that order;
* `precedes_iff_lex` says that this is the lexicographic order;
* `insert` adds a text to a listed set, and `listed` lists the set of the given texts;
* `mem_listed` and `pairwise_listed` say that it has the given texts, each of them once and in order.
-/

/-- Whether the first text comes before the second one. -/
def precedes : Text → Text → Bool
  | _, [] => false
  | [], _ :: _ => true
  | a :: s, b :: t => if a = b then precedes s t else a.toNat < b.toNat

/-- The list with the text in its place, unless it is there already. -/
def insert (t : Text) : List Text → List Text
  | [] => [t]
  | s :: rest =>
    if t = s then s :: rest
    else if precedes t s then t :: s :: rest
    else s :: insert t rest

/-- The texts in ascending order, each of them once. -/
def listed (ts : List Text) : List Text := ts.foldr insert []

/-! ### The order -/

/-- The order is the lexicographic one, by the code points of characters. -/
theorem precedes_iff_lex {s t : Text} :
    precedes s t = true ↔ List.Lex (fun a b => a.toNat < b.toNat) s t := by
  induction s generalizing t with
  | nil => cases t <;> simp [precedes]
  | cons a s ih =>
    cases t with
    | nil => simp [precedes]
    | cons b t =>
      -- The first place at which the texts differ decides.
      by_cases hab : a = b
      · subst hab
        simp [precedes, List.cons_lex_cons_iff, ih]
      · simp [precedes, List.cons_lex_cons_iff, hab]

/-- The order of texts is transitive. -/
theorem precedes_trans {s t u : Text} (h : precedes s t = true) (h' : precedes t u = true) :
    precedes s u = true := by
  rw [precedes_iff_lex] at h h' ⊢
  exact List.lex_trans Nat.lt_trans h h'

/-- Of two texts one comes before the other. -/
theorem precedes_of_ne {s t : Text} (hne : s ≠ t) (h : precedes s t = false) :
    precedes t s = true := by
  cases h' : precedes t s with
  | true => rfl
  | false =>
    rw [← Bool.not_eq_true, precedes_iff_lex] at h h'
    refine absurd (List.lex_trichotomous (fun a b hab hba => ?_) h' h) hne
    exact Char.toNat_inj.mp (Nat.le_antisymm (Nat.not_lt.mp hba) (Nat.not_lt.mp hab))

/-! ### Listed sets -/

/-- A listed set has the text that was added, and those it had. -/
theorem mem_insert {s t : Text} {ts : List Text} : s ∈ insert t ts ↔ s = t ∨ s ∈ ts := by
  induction ts with
  | nil => simp [insert]
  | cons u rest ih =>
    by_cases h : t = u
    · subst h; simp [insert]
    · simp only [insert, h, if_false]
      split
      · simp
      · simp only [List.mem_cons, ih]
        exact or_left_comm

/-- Listing a set loses nothing and adds nothing. -/
theorem mem_listed {t : Text} {ts : List Text} : t ∈ listed ts ↔ t ∈ ts := by
  induction ts with
  | nil => simp [listed]
  | cons u rest ih =>
    have h : listed (u :: rest) = insert u (listed rest) := rfl
    rw [h, mem_insert, ih, List.mem_cons]

/-- A text that is inserted in sorted ones leaves them sorted. -/
theorem pairwise_insert {t : Text} {ts : List Text}
    (h : ts.Pairwise fun u v => precedes u v = true) :
    (insert t ts).Pairwise fun u v => precedes u v = true := by
  induction ts with
  | nil => exact List.pairwise_singleton ..
  | cons u rest ih =>
    obtain ⟨hu, hrest⟩ := List.pairwise_cons.mp h
    rw [insert]
    split
    next => exact h
    next hne =>
      split
      next htu =>
        refine List.pairwise_cons.mpr ⟨fun v hv => ?_, h⟩
        rcases List.mem_cons.mp hv with rfl | hv
        · exact htu
        · exact precedes_trans htu (hu v hv)
      next htu =>
        refine List.pairwise_cons.mpr ⟨fun v hv => ?_, ih hrest⟩
        rcases mem_insert.mp hv with rfl | hv
        · exact precedes_of_ne hne (Bool.eq_false_iff.mpr htu)
        · exact hu v hv

/-- A listed set is in ascending order, with no text twice. -/
theorem pairwise_listed (ts : List Text) :
    (listed ts).Pairwise fun u v => precedes u v = true := by
  induction ts with
  | nil => exact List.Pairwise.nil
  | cons t rest ih => exact pairwise_insert ih

end SqlScript.Text
