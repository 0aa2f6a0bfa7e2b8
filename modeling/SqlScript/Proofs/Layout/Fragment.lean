import SqlScript.Proofs.Layout.Comment
import SqlScript.Proofs.Layout.Reread
import SqlScript.Proofs.Layout.Settled
import SqlScript.Proofs.Layout.Sheet

namespace SqlScript

/-!
# Formatted scripts in different cases

A script that is formatted in different cases has the same lines, the same spaces and the same words
in the same places, and where it cannot be formatted in one case it cannot be in any other.

* `Recased.not_isBlank_of_mem_getLast?` — a text in another case ends with no blank either;
* `Fragment` — a part of a formatted script: a text that is the same in all cases, or a token in the
  case that is chosen for it;
* `Fragments` — the sequences of parts that can come from a text;
* `Line.exists_fragments` — the parts of a line that is written;
* `Style.format_casing` — a script is formatted in all cases as one sequence of parts;
* `Style.not_forall_format_isOf` — comments at the ends of lines are among them without the blanks at
  their ends.
-/

/-! ### Ends of texts in another case -/

/-- A text in another case ends with no blank when the text does not. -/
theorem Recased.not_isBlank_of_mem_getLast? {t u : Text} (h : Recased t u)
    (ht : ∀ d ∈ t.getLast?, Unicode.isBlank d = false) :
    ∀ d ∈ u.getLast?, Unicode.isBlank d = false := by
  induction h with
  | nil => exact ht
  | @same e t u h ih =>
    have hnil := h.eq_nil_iff
    rcases List.eq_nil_or_concat t with rfl | ⟨front, d, rfl⟩
    · obtain rfl : u = [] := hnil.mpr rfl
      exact ht
    · have hu : u ≠ [] := fun hu => absurd (hnil.mp hu) (by simp)
      rw [List.getLast?_cons_of_ne_nil hu]
      rw [List.getLast?_cons_of_ne_nil (by simp)] at ht
      exact ih ht
  | @other e image t u _ hne himage h ih =>
    have hnil := h.eq_nil_iff
    rcases List.eq_nil_or_concat t with rfl | ⟨front, d, rfl⟩
    · obtain rfl : u = [] := hnil.mpr rfl
      rw [List.append_nil]
      exact fun d hd => himage d (List.mem_of_getLast? hd)
    · have hu : u ≠ [] := fun hu => absurd (hnil.mp hu) (by simp)
      rw [List.getLast?_append_of_ne_nil _ hu]
      rw [List.getLast?_cons_of_ne_nil (by simp)] at ht
      exact ih ht

/-- A closed token ends with no blank in any case, unless it is a comment. -/
theorem Casing.not_isBlank_of_mem_getLast? (c : Casing) {t : Text} {u : Token}
    (hu : u ∈ Token.scan t) (hwhole : u.isWhole = true) (hcomment : u.isComment = false) :
    ∀ d ∈ (c.apply u).getLast?, Unicode.isBlank d = false := by
  obtain ⟨before, after, hsplit⟩ := List.append_of_mem hu
  obtain ⟨rest, -, -, hread, -⟩ := Text.scan_split hsplit
  refine (c.recased u).not_isBlank_of_mem_getLast? (hread.not_isBlank_of_mem_getLast? ?_ ?_)
  · simpa [Token.isWhole, hcomment] using hwhole
  · rw [Lexeme.isLineComment]
    have hkind : (u.kind == .comment) = false := hcomment
    rw [show u.lexeme.kind = u.kind from rfl, hkind, Bool.false_and]

/-! ### Fragments -/

/-- A part of a formatted script. -/
inductive Fragment where
  /-- A text that is the same in all cases. -/
  | fixed (text : Text)
  /-- A token in the case that is chosen for it. -/
  | cased (token : Token)

namespace Fragment

/-- The text of the fragment. -/
def shown (c : Casing) : Fragment → Text
  | fixed t => t
  | cased u => c.apply u

/-- Whether the fragment can be a part of the formatted text: a line break of the text, spaces, a
    semicolon, a parenthesis, a token that has no case, or any other token in its case. -/
inductive IsOf (t : Text) : Fragment → Prop where
  | lineBreak : IsOf t (fixed (Text.lineBreak t))
  | spaces (n : Nat) : IsOf t (fixed (Text.spaces n))
  | semicolon : IsOf t (fixed [';'])
  | openParen : IsOf t (fixed ['('])
  | closeParen : IsOf t (fixed [')'])
  | kept {u : Token} : u ∈ Token.scan t → u.kind.keepsCase = true → IsOf t (fixed u.text)
  | cased {u : Token} : u ∈ Token.scan t → u.kind.keepsCase = false → u.kind ≠ .openParen →
      u.kind ≠ .closeParen → IsOf t (cased u)

end Fragment

/-- The sequences of parts that a formatted text can have. A comment at the end of a line is there
    without the blanks at its end. -/
inductive Fragments (t : Text) : List Fragment → Prop where
  | nil : Fragments t []
  | cons {f : Fragment} {fs : List Fragment} : f.IsOf t → Fragments t fs → Fragments t (f :: fs)
  | comment {u : Token} {fs : List Fragment} : u ∈ Token.scan t → u.kind = .comment →
      (∀ f ∈ fs.head?, f = .fixed (Text.lineBreak t)) → Fragments t fs →
      Fragments t (.fixed (Text.trimEnd u.text) :: fs)

/-- In front of such a sequence there can be any parts of the text. -/
theorem Fragments.append_isOf {t : Text} {fs gs : List Fragment} (hgs : Fragments t gs)
    (hfs : ∀ f ∈ fs, f.IsOf t) : Fragments t (fs ++ gs) := by
  induction fs with
  | nil => exact hgs
  | cons f fs ih => exact .cons (hfs f (by simp)) (ih fun g hg => hfs g (by simp [hg]))

/-! ### Pieces -/

/-- The token as a fragment. -/
def Token.fragment (u : Token) : Fragment :=
  if u.kind.keepsCase || u.kind == .openParen || u.kind == .closeParen then .fixed u.text
  else .cased u

/-- The piece as a fragment. -/
def Piece.fragment : Piece → Fragment
  | .pad width => .fixed (Text.spaces width)
  | .verbatim u | .cased u => u.fragment
  | .openParen => .fixed ['(']
  | .closeParen => .fixed [')']
  | .terminator => .fixed [';']

variable {t : Text} {u : Token} {p : Piece} {l : Line}

/-- A token of the text is a part of it. -/
theorem Token.isOf_fragment (hu : u ∈ scan t) : u.fragment.IsOf t := by
  have hmarked := isMarked_of_mem_scan hu
  unfold fragment
  by_cases hkept : u.kind.keepsCase = true
  · rw [hkept]
    exact .kept hu hkept
  by_cases hopen : u.kind = .openParen
  · rw [hmarked '(' (by rw [hopen]; rfl), hopen]
    exact .openParen
  by_cases hclose : u.kind = .closeParen
  · rw [hmarked ')' (by rw [hclose]; rfl), hclose]
    exact .closeParen
  · rw [if_neg (by simp [hkept, hopen, hclose])]
    exact .cased hu (by simpa using hkept) hopen hclose

/-- A token of the text is written in each case as the part of it is. -/
theorem Token.shown_fragment (hu : u ∈ scan t) (c : Casing) : u.fragment.shown c = c.apply u := by
  have hmarked := isMarked_of_mem_scan hu
  unfold fragment
  split
  · rename_i hfixed
    rw [Bool.or_eq_true, Bool.or_eq_true] at hfixed
    show u.text = _
    rcases hfixed with (hkept | hopen) | hclose
    · rw [Casing.apply, if_pos hkept]
    · exact (c.apply_of_mark? hmarked (m := '(') (by rw [eq_of_beq hopen]; rfl)).symm
    · exact (c.apply_of_mark? hmarked (m := ')') (by rw [eq_of_beq hclose]; rfl)).symm
  · rfl

/-- A piece that shows a token of the text is a part of it. -/
theorem Piece.isOf_fragment (hp : p.Shows (· ∈ Token.scan t)) : p.fragment.IsOf t := by
  cases p with
  | pad width => exact .spaces width
  | verbatim u => exact Token.isOf_fragment hp.1
  | cased u => exact Token.isOf_fragment hp
  | openParen => exact .openParen
  | closeParen => exact .closeParen
  | terminator => exact .semicolon

/-- A piece is written as its fragment is. -/
theorem Piece.shown_fragment (hp : p.Shows (· ∈ Token.scan t)) (c : Casing) :
    p.fragment.shown c = p.shown c := by
  cases p with
  | verbatim u =>
    obtain ⟨hu, hk⟩ := hp
    refine (Token.shown_fragment hu c).trans ?_
    rcases hk with hk | hk
    · obtain ⟨m, hm⟩ := Option.isSome_iff_exists.mp hk
      exact c.apply_of_mark? (Token.isMarked_of_mem_scan hu) hm
    · exact c.apply_of_comment hk
  | cased u => exact Token.shown_fragment hp c
  | _ => rfl

/-- What a piece is written as at the end of a line: blanks, a comment, or a text that ends with no
    blank in any case. -/
theorem Piece.endings (hp : p.Shows (· ∈ Token.scan t)) (hwhole : p.Shows (·.isWhole = true)) :
    Text.isBlank p.source = true ∨
      (∃ u ∈ Token.scan t, u.kind = .comment ∧ ∀ c, p.shown c = u.text) ∨
      ∀ c, p.shown c ≠ [] ∧ ∀ d ∈ (p.shown c).getLast?, Unicode.isBlank d = false := by
  -- A piece that shows a token is a comment, or ends like the token, which no blank does.
  have htoken : ∀ u ∈ Token.scan t, u.isWhole = true → (∀ c, p.shown c = c.apply u) →
      (∃ u ∈ Token.scan t, u.kind = .comment ∧ ∀ c, p.shown c = u.text) ∨
        ∀ c, p.shown c ≠ [] ∧ ∀ d ∈ (p.shown c).getLast?, Unicode.isBlank d = false := by
    intro u hu hwhole hshown
    by_cases hk : u.kind = .comment
    · exact .inl ⟨u, hu, hk, fun c => (hshown c).trans (c.apply_of_comment hk)⟩
    · refine .inr fun c => ?_
      rw [hshown]
      refine ⟨fun hnil => ?_, c.not_isBlank_of_mem_getLast? hu hwhole (by simp [Token.isComment, hk])⟩
      have hblank := (c.recased u).isBlank
      rw [hnil, Token.not_isBlank_of_mem_scan hu] at hblank
      exact absurd hblank (by decide)
  cases p with
  | pad width => exact .inl (List.all_eq_true.mpr fun d hd => by
      rw [List.eq_of_mem_replicate hd]
      decide)
  | verbatim u =>
    have hshown : ∀ c, (Piece.verbatim u).shown c = c.apply u := fun c => by
      rw [← Piece.shown_fragment hp, Piece.fragment, Token.shown_fragment hp.1]
    exact .inr (htoken u hp.1 hwhole.1 hshown)
  | cased u => exact .inr (htoken u hp hwhole fun c => rfl)
  | _ => exact .inr (.inr fun c => by simp [Piece.shown, Piece.textBy]; decide)

/-! ### Lines -/

namespace Line

/-- Every piece of a line that shows tokens of the text is a part of it. -/
theorem isOf_fragments (hl : l.Shows (· ∈ Token.scan t)) :
    ∀ f ∈ l.map Piece.fragment, f.IsOf t := by
  intro f hf
  obtain ⟨p, hp, rfl⟩ := List.mem_map.mp hf
  exact Piece.isOf_fragment (hl p hp)

/-- The parts that a line is made of are written in each case as the line is. -/
theorem shown_fragments (hl : l.Shows (· ∈ Token.scan t)) (c : Casing) :
    (l.map Piece.fragment).flatMap (Fragment.shown c) = l.shown c := by
  rw [List.flatMap_map, shown]
  exact List.flatMap_congr fun p hp => Piece.shown_fragment (hl p hp) c

/-- A line that ends with no blank in any case is written as its fragments are. -/
theorem trimEnd_shown_concat {before : Line} (hl : (before ++ [p]).Shows (· ∈ Token.scan t))
    (c : Casing) (hne : p.shown c ≠ [])
    (hp : ∀ d ∈ (p.shown c).getLast?, Unicode.isBlank d = false) :
    Text.trimEnd (shown c (before ++ [p]))
      = ((before ++ [p]).map Piece.fragment).flatMap (Fragment.shown c) := by
  have hlast : shown c [p] = p.shown c := List.append_nil _
  rw [shown_fragments hl]
  refine Text.trimEnd_eq_self ?_
  rwa [shown_append, hlast, List.getLast?_append_of_ne_nil _ hne]

/-- A line that is written is one sequence of fragments in all cases, behind which there can be the
    line break and the fragments of other lines. -/
theorem exists_fragments (hl : l.Shows (· ∈ Token.scan t)) (hsettled : l.IsSettled) :
    ∃ fs : List Fragment, (∀ gs, Fragments t gs → (∀ f ∈ gs.head?, f = .fixed (Text.lineBreak t)) →
        Fragments t (fs ++ gs)) ∧
      ∀ c, Text.trimEnd (l.shown c) = fs.flatMap (Fragment.shown c) := by
  rcases hsettled with hwhole | ⟨before, u, rfl⟩
  · induction l using List.reverseRecOn with
    | nil => exact ⟨[], fun gs hgs _ => hgs, fun c => rfl⟩
    | append_singleton before p ih =>
      obtain ⟨hbefore, hp⟩ := shows_append.mp hl
      obtain ⟨hwholes, hwhole⟩ := shows_append.mp hwhole
      have hlast : ∀ c, shown c [p] = p.shown c := fun c => List.append_nil _
      rcases p.endings (shows_singleton.mp hp) (shows_singleton.mp hwhole) with
        hblank | ⟨u, hu, hk, htext⟩ | hends
      · -- Blanks at the end are not written.
        obtain ⟨fs, hfs, hshown⟩ := ih hbefore hwholes
        refine ⟨fs, hfs, fun c => ?_⟩
        have hp : Text.isBlank (p.shown c) = true := (p.recased c).isBlank.trans hblank
        rw [← hshown, shown_append, hlast, Text.trimEnd_append_of_isBlank _ hp]
      · refine ⟨before.map Piece.fragment ++ [.fixed (Text.trimEnd u.text)], fun gs hgs hhead => ?_,
          fun c => ?_⟩
        · rw [List.append_assoc]
          exact (Fragments.comment hu hk hhead hgs).append_isOf (isOf_fragments hbefore)
        · rw [shown_append, hlast, htext, Text.trimEnd_append _ (Token.not_isBlank_of_mem_scan hu),
            List.flatMap_append, shown_fragments hbefore]
          simp [Fragment.shown]
      · exact ⟨(before ++ [p]).map Piece.fragment, fun gs hgs _ => hgs.append_isOf (isOf_fragments hl),
          fun c => trimEnd_shown_concat hl c (hends c).1 (hends c).2⟩
  · refine ⟨(before ++ [Piece.cased u, Piece.terminator]).map Piece.fragment,
      fun gs hgs _ => hgs.append_isOf (isOf_fragments hl), fun c => ?_⟩
    have hsplit : before ++ [Piece.cased u, .terminator]
        = before ++ [Piece.cased u] ++ [Piece.terminator] := by simp
    rw [hsplit] at hl ⊢
    exact trimEnd_shown_concat hl c (by simp [Piece.shown, Piece.textBy])
      (by simp [Piece.shown, Piece.textBy]; decide)

end Line

/-! ### Scripts -/

/-- Lines that are written are one sequence of fragments in all cases. -/
theorem Script.exists_fragments {ls : List Line} (hl : ∀ l ∈ ls, l.Shows (· ∈ Token.scan t))
    (hsettled : ∀ l ∈ ls, l.IsSettled) : ∃ fs : List Fragment, Fragments t fs ∧
      ∀ c, write c (Text.lineBreak t) ls = fs.flatMap (Fragment.shown c) := by
  induction ls with
  | nil => exact ⟨[], .nil, fun c => rfl⟩
  | cons l ls ih =>
    obtain ⟨fs, hfs, hshown⟩ := Line.exists_fragments (hl l (by simp)) (hsettled l (by simp))
    obtain ⟨gs, hgs, hrest⟩ := ih (fun m hm => hl m (by simp [hm])) fun m hm =>
      hsettled m (by simp [hm])
    cases ls with
    | nil =>
      refine ⟨fs ++ [], hfs [] .nil (by simp), fun c => ?_⟩
      rw [write_singleton, hshown, List.append_nil]
    | cons m ls =>
      refine ⟨fs ++ .fixed (Text.lineBreak t) :: gs, hfs _ (.cons .lineBreak hgs) (by simp),
        fun c => ?_⟩
      rw [write_cons_cons, hshown, hrest, List.flatMap_append, List.flatMap_cons]
      rfl

namespace Style

/-- The lines of statements do not depend on the cases. -/
theorem layOut_casing (sp : Spacing) (c c' : Casing) (spaceBetween : Bool)
    (previous : Option Statement) (ss : List (Statement × Int)) :
    layOut ⟨sp, c, spaceBetween⟩ previous ss = layOut ⟨sp, c', spaceBetween⟩ previous ss := by
  induction ss generalizing previous with
  | nil => rfl
  | cons p ss ih =>
    rw [layOut, layOut, ih]
    rfl

/-- The cases that are chosen change nothing but the case of words. Formatting by what is written is
    formatting, so that no decision depends on a case. A text cannot be formatted in any case, for
    one and the same reason, or it is formatted as one sequence of fragments in all cases: line breaks,
    spaces, semicolons, parentheses and the texts of tokens that have no case are the same, and the
    others are tokens in the case that is chosen. A comment at the end of a line is written without
    the blanks at its end. -/
theorem format_casing (sp : Spacing) (spaceBetween : Bool) (t : Text) :
    (∀ c, typeset ⟨sp, c, spaceBetween⟩ t = format ⟨sp, c, spaceBetween⟩ t) ∧
      ((∃ e, ∀ c, format ⟨sp, c, spaceBetween⟩ t = .error e) ∨
        ∃ fs, Fragments t fs ∧
          ∀ c, format ⟨sp, c, spaceBetween⟩ t = .ok (fs.flatMap (Fragment.shown c))) := by
  refine ⟨fun c => typeset_eq_format _ t, ?_⟩
  let plain : Casing := ⟨.preserve, .preserve⟩
  have hlines : ∀ c, (Script.ofText t).layOut ⟨sp, c, spaceBetween⟩
      = (Script.ofText t).layOut ⟨sp, plain, spaceBetween⟩ := fun c =>
    layOut_casing sp c plain spaceBetween none _
  cases hls : (Script.ofText t).layOut ⟨sp, plain, spaceBetween⟩ with
  | error e =>
    refine .inl ⟨e, fun c => ?_⟩
    rw [format, Script.format, hlines, hls]
    rfl
  | ok ls =>
    obtain ⟨fs, hfs, hshown⟩ :=
      Script.exists_fragments (Script.shows_layOut hls) (Script.isSettled_layOut hls)
    refine .inr ⟨fs, hfs, fun c => ?_⟩
    rw [format, Script.format, hlines, hls, ← hshown]
    rfl

/-- Without the exception for comments it does not hold: a comment with a blank at its end is not
    written as it is. -/
theorem not_forall_format_isOf :
    ¬ ∀ (sp : Spacing) (spaceBetween : Bool) (t : Text) (c c' : Casing),
      (∃ e, format ⟨sp, c, spaceBetween⟩ t = .error e ∧ format ⟨sp, c', spaceBetween⟩ t = .error e) ∨
        ∃ fs : List Fragment, (∀ f ∈ fs, f.IsOf t) ∧
          format ⟨sp, c, spaceBetween⟩ t = .ok (fs.flatMap (Fragment.shown c)) ∧
          format ⟨sp, c', spaceBetween⟩ t = .ok (fs.flatMap (Fragment.shown c')) := by
  intro h
  let upper : Casing := ⟨.upper, .upper⟩
  have hformat : format ⟨⟨4, false⟩, upper, false⟩ "-- a ".toList = .ok "-- a".toList := by
    decide +kernel
  have hscan : Token.scan "-- a ".toList = [⟨.comment, "-- a ".toList, ⟨0, 5⟩⟩] := by
    decide +kernel
  rcases h ⟨4, false⟩ false "-- a ".toList upper ⟨.lower, .lower⟩ with ⟨e, he, -⟩ | ⟨fs, hfs, hok, -⟩
  · rw [hformat] at he
    contradiction
  · have htext : fs.flatMap (Fragment.shown upper) = "-- a".toList :=
      (Except.ok.inj (hformat.symm.trans hok)).symm
    -- The letter is in a fragment that is longer than the whole text.
    obtain ⟨f, hf, ha⟩ := List.mem_flatMap.mp (show 'a' ∈ fs.flatMap (Fragment.shown upper) by
      rw [htext]
      decide)
    have hlong : 5 ≤ (f.shown upper).length := by
      cases hfs f hf with
      | lineBreak => exact absurd ha (by decide)
      | spaces n => exact absurd (List.eq_of_mem_replicate ha) (by decide)
      | semicolon => exact absurd ha (by decide)
      | openParen => exact absurd ha (by decide)
      | closeParen => exact absurd ha (by decide)
      | kept hu _ =>
        rw [hscan, List.mem_singleton] at hu
        subst hu
        decide
      | cased hu hk =>
        rw [hscan, List.mem_singleton] at hu
        subst hu
        exact absurd hk (by decide)
    have hshort : (f.shown upper).length ≤ (fs.flatMap (Fragment.shown upper)).length :=
      (List.sublist_flatten_of_mem (List.mem_map_of_mem hf)).length_le
    rw [htext] at hshort
    exact absurd (hlong.trans hshort) (by decide)

end Style

end SqlScript
