import Mathlib.Data.List.Chain
import SqlScript.Proofs.Layout.Gather
import SqlScript.Proofs.Text.Trim
import SqlScript.Proofs.Token.Ending

namespace SqlScript

/-!
# The seams of lines

A lexeme that is written in a line has something behind it: a space, or the next lexeme. What the
layout puts side by side without a space is told here.

* `Piece.lexeme?` — the lexeme that a piece shows;
* `Line.Linked` — whether a relation holds between the lexemes of a line and the first characters of
  what is right behind them;
* `Line.lastLexeme?` — the lexeme that the next piece of a line would be right behind;
* `Line.linked_append` — what is between two parts of a line.
-/

/-- The token in the chosen case, without its place. -/
def Token.shownAs (c : Casing) (t : Token) : Lexeme := ⟨t.kind, c.apply t⟩

/-! ### Pieces -/

namespace Piece

/-- The lexeme that the piece shows. Spaces show none. -/
def lexeme? (c : Casing) : Piece → Option Lexeme
  | pad _ => none
  | verbatim t => some t.lexeme
  | cased t => some (t.shownAs c)
  | openParen => some ⟨.openParen, ['(']⟩
  | closeParen => some ⟨.closeParen, [')']⟩
  | terminator => some ⟨.semicolon, [';']⟩

/-- A piece is written as its lexeme is. -/
theorem shown_of_lexeme? {c : Casing} {p : Piece} {x : Lexeme} (h : x ∈ p.lexeme? c) :
    p.shown c = x.text := by
  cases p <;> simp only [lexeme?, Option.mem_def, Option.some.injEq, reduceCtorEq] at h <;>
    subst h <;> rfl

/-- Whether the lexeme of the piece is read when it stands alone, and closed. -/
def IsClosed (c : Casing) (p : Piece) : Prop := ∀ x ∈ p.lexeme? c, x.Proper ∧ x.isOpen = false

/-- Whether the piece is a comment that ends with its line. -/
def isLineComment (c : Casing) (p : Piece) : Bool := (p.lexeme? c).any Lexeme.isLineComment

/-- Padding has no lexeme that could be open. -/
theorem isClosed_pad (c : Casing) (width : Nat) : (pad width).IsClosed c := by
  simp [IsClosed, lexeme?]

/-- A mark is read when it stands alone. -/
theorem proper_of_mark? {k : Kind} {m : Char} (hk : k.mark? = some m) : Lexeme.Proper ⟨k, [m]⟩ := by
  have hpunct : punctuationKind? m = some k := punctuationKind?_eq_some_iff.mpr hk
  refine Lexeme.Form.readBefore (.punctuation hpunct ?_ ?_)
  · rw [startsLongOperator_mark hpunct]
    simp
  · rw [numberReach_mark hpunct]
    simp

/-- A piece that shows a mark is closed. -/
theorem isClosed_of_mark? {c : Casing} {p : Piece} {k : Kind} {m : Char} (hk : k.mark? = some m)
    (hp : p.lexeme? c = some ⟨k, [m]⟩) : p.IsClosed c := by
  intro x hx
  obtain rfl := Option.some.inj (hp.symm.trans hx)
  refine ⟨proper_of_mark? hk, ?_⟩
  cases k <;> simp [Kind.mark?] at hk <;> rfl

/-- The parenthesis that opens a block is closed, as a mark. -/
theorem isClosed_openParen (c : Casing) : openParen.IsClosed c := isClosed_of_mark? rfl rfl

/-- The parenthesis that closes a block is closed, as a mark. -/
theorem isClosed_closeParen (c : Casing) : closeParen.IsClosed c := isClosed_of_mark? rfl rfl

/-- The semicolon behind a statement is closed, as a mark. -/
theorem isClosed_terminator (c : Casing) : terminator.IsClosed c := isClosed_of_mark? rfl rfl

/-- A lexeme that is read shows something. -/
theorem IsClosed.shown_not_isBlank {c : Casing} {p : Piece} (h : p.IsClosed c) {x : Lexeme}
    (hx : x ∈ p.lexeme? c) : Text.isBlank (p.shown c) = false := by
  rw [shown_of_lexeme? hx]
  exact (h x hx).1.not_isBlank

/-- Whether the relation holds of the lexeme of a piece and the first character of the next one. -/
def Meets (c : Casing) (M : Lexeme → Char → Prop) (p q : Piece) : Prop :=
  ∀ x ∈ p.lexeme? c, ∀ d ∈ (q.shown c).head?, M x d

end Piece

/-! ### Lines -/

namespace Line

variable (c : Casing)

/-- The pieces of a line that take any place. -/
def core (l : Line) : Line := l.filter fun p => !(p.shown c).isEmpty

/-- Whether the relation holds of the lexemes of a line and the characters right behind them. -/
def Linked (M : Lexeme → Char → Prop) (l : Line) : Prop := (core c l).IsChain (Piece.Meets c M)

/-- The lexeme at the end of a line, none when a space is there. -/
def lastLexeme? (l : Line) : Option Lexeme := (core c l).getLast?.bind (Piece.lexeme? c)

variable {c}

/-- The pieces that take any place in two parts of a line are those of one part and then of the
    other. -/
theorem core_append (l m : Line) : core c (l ++ m) = core c l ++ core c m := List.filter_append ..

/-- A piece that shows something takes a place. -/
theorem core_cons_of_shown {p : Piece} (h : p.shown c ≠ []) (l : Line) :
    core c (p :: l) = p :: core c l := by
  simp [core, h]

/-- A piece that shows nothing takes none. -/
theorem core_cons_of_not_shown {p : Piece} (h : p.shown c = []) (l : Line) :
    core c (p :: l) = core c l := by
  simp [core, h]

/-- Two parts of a line are written one after the other. -/
theorem shown_append (l m : Line) : shown c (l ++ m) = shown c l ++ shown c m :=
  List.flatMap_append

/-- A line is written piece by piece. -/
theorem shown_cons (p : Piece) (l : Line) : shown c (p :: l) = p.shown c ++ shown c l := rfl

/-- A line starts with its first piece that takes any place. -/
theorem head?_shown (l : Line) :
    (shown c l).head? = (core c l).head?.bind fun p => (p.shown c).head? := by
  induction l with
  | nil => rfl
  | cons p l ih =>
    by_cases hp : p.shown c = []
    · rw [core_cons_of_not_shown hp, shown_cons, hp, List.nil_append, ih]
    · obtain ⟨d, v, hv⟩ := List.exists_cons_of_ne_nil hp
      rw [core_cons_of_shown hp, shown_cons, hv]
      simp [hv]

/-- A line ends with its last piece that takes any place. -/
theorem getLast?_shown (l : Line) :
    (shown c l).getLast? = (core c l).getLast?.bind fun p => (p.shown c).getLast? := by
  induction l using List.reverseRecOn with
  | nil => rfl
  | append_singleton l p ih =>
    have hlast : shown c [p] = p.shown c := List.append_nil _
    rw [core_append, shown_append, hlast]
    by_cases hp : p.shown c = []
    · rw [hp, core_cons_of_not_shown hp, List.append_nil, ih]
      simp [core]
    · rw [core_cons_of_shown hp, List.getLast?_append_of_ne_nil _ hp]
      simp [core]

/-- The relation holds in a line when it holds in its parts and between them. -/
theorem linked_append {M : Lexeme → Char → Prop} {l m : Line} :
    Linked c M (l ++ m) ↔ Linked c M l ∧ Linked c M m ∧
      ∀ x ∈ lastLexeme? c l, ∀ d ∈ (shown c m).head?, M x d := by
  rw [Linked, core_append, List.isChain_append]
  refine and_congr_right fun _ => and_congr_right fun _ => ?_
  rw [head?_shown, lastLexeme?]
  simp only [Option.mem_def, Option.bind_eq_some_iff, Piece.Meets]
  constructor
  · rintro h x ⟨p, hp, hx⟩ d ⟨q, hq, hd⟩
    exact h p hp q hq x hx d hd
  · intro h p hp q hq x hx d hd
    exact h x ⟨p, hp, hx⟩ d ⟨q, hq, hd⟩

/-- The relation holds in an empty line. -/
theorem linked_nil {M : Lexeme → Char → Prop} : Linked c M [] := List.isChain_nil

/-- The relation holds in a line of one piece. -/
theorem linked_singleton {M : Lexeme → Char → Prop} (p : Piece) : Linked c M [p] := by
  by_cases hp : p.shown c = []
  · rw [Linked, core_cons_of_not_shown hp]
    exact linked_nil
  · rw [Linked, core_cons_of_shown hp]
    exact List.isChain_singleton p

/-- The last piece is the one that the next one would be right behind. -/
theorem lastLexeme?_concat {p : Piece} (hp : p.shown c ≠ []) (l : Line) :
    lastLexeme? c (l ++ [p]) = p.lexeme? c := by
  rw [lastLexeme?, core_append, core_cons_of_shown hp]
  simp [core]

/-- Nothing is right behind a lexeme in front of an indentation. -/
theorem lastLexeme?_indented (width : Int) : lastLexeme? c (indented width) = none := by
  unfold lastLexeme? indented
  by_cases hp : (Piece.pad width.toNat).shown c = []
  · rw [core_cons_of_not_shown hp]
    rfl
  · rw [core_cons_of_shown hp]
    rfl

/-- An indentation does not change whether the relation holds in a line. -/
theorem linked_indented_append {M : Lexeme → Char → Prop} {width : Int} {l : Line} :
    Linked c M (indented width ++ l) ↔ Linked c M l := by
  rw [linked_append, lastLexeme?_indented]
  simp [indented, linked_singleton]

/-- The lexeme at the end of a line is in it. -/
theorem exists_of_mem_lastLexeme? {l : Line} {x : Lexeme} (h : x ∈ lastLexeme? c l) :
    ∃ p ∈ l, x ∈ p.lexeme? c := by
  obtain ⟨p, hp, hx⟩ := Option.bind_eq_some_iff.mp h
  exact ⟨p, (List.mem_filter.mp (List.mem_of_getLast? hp)).1, hx⟩

/-! ### Blank lines -/

/-- A blank line has no other pieces than blank ones. -/
theorem isBlank_shown_of_mem {l : Line} (hl : isBlank l = true) {p : Piece} (hp : p ∈ l) :
    Text.isBlank (p.shown c) = true := by
  rw [← isBlank_shown c] at hl
  exact List.all_eq_true.mpr fun d hd =>
    List.all_eq_true.mp hl d (List.mem_flatMap.mpr ⟨p, hp, hd⟩)

/-- A blank line shows no lexeme. -/
theorem lexeme?_eq_none_of_isBlank {l : Line} (hl : isBlank l = true)
    (hclosed : ∀ p ∈ l, p.IsClosed c) : ∀ p ∈ l, p.lexeme? c = none := by
  intro p hp
  rw [Option.eq_none_iff_forall_not_mem]
  intro x hx
  have := (hclosed p hp).shown_not_isBlank hx
  rw [isBlank_shown_of_mem hl hp] at this
  exact absurd this (by decide)

/-- A blank line has no comment that ends with its line. -/
theorem isLineComment_of_isBlank {l : Line} (hl : isBlank l = true) :
    ∀ p ∈ l, p.isLineComment c = false := by
  intro p hp
  rw [Piece.isLineComment, Option.any_eq_false]
  intro x hx
  rw [Bool.eq_false_iff]
  intro hcomment
  -- The comment shows its dashes.
  have hblank := isBlank_shown_of_mem (c := c) hl hp
  rw [Piece.shown_of_lexeme? hx] at hblank
  simp only [Lexeme.isLineComment, Bool.and_eq_true, List.isPrefixOf_iff_prefix] at hcomment
  obtain ⟨v, hv⟩ := hcomment.2
  rw [← hv] at hblank
  exact absurd (List.all_eq_true.mp hblank '-' (by simp [Token.lineCommentMark])) (by decide)

/-- The relation holds in a blank line, as no lexeme is there. -/
theorem linked_of_isBlank {M : Lexeme → Char → Prop} {l : Line} (hl : isBlank l = true)
    (hclosed : ∀ p ∈ l, p.IsClosed c) : Linked c M l := by
  have hnone := lexeme?_eq_none_of_isBlank hl hclosed
  rw [Linked, List.isChain_iff_forall_rel_of_append_cons_cons]
  intro p q before after hsplit x hx
  have hp : p ∈ core c l := by simp [hsplit]
  rw [hnone p (List.mem_filter.mp hp).1] at hx
  exact absurd hx (by simp)

/-- No lexeme is at the end of a blank line. -/
theorem lastLexeme?_of_isBlank {l : Line} (hl : isBlank l = true)
    (hclosed : ∀ p ∈ l, p.IsClosed c) : lastLexeme? c l = none := by
  rw [Option.eq_none_iff_forall_not_mem]
  intro x hx
  obtain ⟨p, hp, hpx⟩ := exists_of_mem_lastLexeme? hx
  rw [lexeme?_eq_none_of_isBlank hl hclosed p hp] at hpx
  exact absurd hpx (by simp)

/-- What holds of blank lines holds of all lines when it holds without a blank one at the end. -/
theorem forall_mem_dropBlankLast {P : Line → Prop} {ls : List Line}
    (hblank : ∀ l ∈ ls, isBlank l = true → P l) :
    (∀ l ∈ dropBlankLast ls, P l) ↔ ∀ l ∈ ls, P l := by
  unfold dropBlankLast
  split
  · rename_i h
    refine ⟨fun hall l hl => ?_, fun hall l hl => hall l ((List.dropLast_sublist ls).subset hl)⟩
    cases hlast : ls.getLast? with
    | none => simp [hlast] at h
    | some m =>
      have hm : isBlank m = true := by simpa [hlast] using h
      obtain ⟨ms, rfl⟩ := List.getLast?_eq_some_iff.mp hlast
      rw [List.dropLast_concat] at hall
      rcases List.mem_append.mp hl with hl | hl
      · exact hall l hl
      · obtain rfl := List.mem_singleton.mp hl
        exact hblank l (by simp) hm
  · rfl

/-- What is left without the blank lines at the end is one of the lines, and the others are
    blank. -/
theorem mem_dropBlankEnd {ls : List Line} {l : Line} (hl : l ∈ dropBlankEnd ls) : l ∈ ls := by
  cases ls with
  | nil => exact hl
  | cons m rest =>
    rcases List.mem_cons.mp hl with rfl | hl
    · exact List.mem_cons_self ..
    · have := (List.dropWhile_sublist isBlank).subset (List.mem_reverse.mp hl)
      exact List.mem_cons_of_mem _ (List.mem_reverse.mp this)

/-- What holds of blank lines in any case holds of all lines when it holds of those that are
    left. -/
theorem forall_mem_dropBlankEnd {P : Line → Prop} {ls : List Line}
    (hblank : ∀ l ∈ ls, isBlank l = true → P l) :
    (∀ l ∈ dropBlankEnd ls, P l) ↔ ∀ l ∈ ls, P l := by
  refine ⟨fun hall l hl => ?_, fun hall l hl => hall l (mem_dropBlankEnd hl)⟩
  cases ls with
  | nil => exact hall l hl
  | cons m rest =>
    rcases List.mem_cons.mp hl with rfl | hmem
    · exact hall l (List.mem_cons_self ..)
    · have hsplit := List.mem_reverse.mpr hmem
      rw [← List.takeWhile_append_dropWhile (p := isBlank) (l := rest.reverse)] at hsplit
      rcases List.mem_append.mp hsplit with h | h
      · exact hblank l hl (List.all_eq_true.mp List.all_takeWhile l h)
      · exact hall l (List.mem_cons_of_mem _ (List.mem_reverse.mpr h))

end Line

end SqlScript
