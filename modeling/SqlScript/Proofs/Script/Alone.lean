import SqlScript.Proofs.Script.Locate
import SqlScript.Proofs.Script.Place
import SqlScript.Proofs.Script.Segment
import SqlScript.Proofs.Token.Part
import SqlScript.Script.Runnable

namespace SqlScript

/-!
# What is run stands alone

The text of a statement, or of a group, is read on its own as it is read in the script, so that what
is run at the cursor means there what it means in the script.

* `Script.exists_window` — statements that follow each other are read of the part of the text from
  the first one to the last one;
* `Script.IsPart` — whether a script is a single group of statements that are found further behind in
  another one;
* `Runnable.find_alone` — statements and groups are read on their own, and what is run at the cursor
  is found again in its own text.
-/

namespace Script

/-- Statements that follow each other in a script are read of the part of the text from the start of
    the first one to the end of the last one. -/
theorem exists_window {t : Text} {before part after : List Statement} (hpart : part ≠ [])
    (h : (ofText t).statements = before ++ (part ++ after)) :
    ∃ front inner back : Text, t = front ++ (inner ++ back) ∧
      (part.head hpart).span.start = front.length ∧
      (part.getLast hpart).span.stop = (front.length + inner.length : Nat) ∧
      (ofText inner).statements = part.map (Statement.map (Token.shift (-front.length))) := by
  have hread : ∀ u ∈ Token.scan t, u.IsRead := fun u hu => Token.isRead_of_mem_scan hu
  have hreads := Statement.reads_ofTokens hread
  rw [show Statement.ofTokens (Token.scan t) = _ from h] at hreads
  obtain ⟨ahead, window, behind, hscan, hwindow, ⟨more, hhead⟩, ⟨most, hlast⟩⟩ :=
    hreads.exists_window hpart hread
  have hne : window ≠ [] := by
    rw [← hhead]
    exact List.append_ne_nil_of_left_ne_nil (part.head hpart).nonempty more
  obtain ⟨front, inner, back, rfl, hstart, hstop, hmap⟩ := Token.exists_part hne hscan
  refine ⟨front, inner, back, rfl, hstart ▸ ?_, hstop ▸ ?_, ?_⟩
  · simp only [← hhead, List.head_append_of_ne_nil (part.head hpart).nonempty]
    rfl
  · simp only [← hlast, List.getLast_append_of_ne_nil _ (part.getLast hpart).nonempty]
    rfl
  · -- The tokens of the part are those of the window, moved to the front.
    have hinner : Token.scan inner = window.map (Token.shift (-front.length)) := by
      rw [hmap, Token.map_shift_neg_shift]
    show Statement.ofTokens (Token.scan inner) = _
    rw [hinner, Statement.ofTokens_map (Token.keepsLexemes_shift _).alike, hwindow]

/-- Whether a script is a single group of the statements, which are found `n` characters further
    behind in another one. -/
structure IsPart (s : Script) (n : Int) (ss : List Statement) : Prop where
  length_groups : s.groups.length = 1
  statements : s.statements = ss.map (Statement.map (Token.shift (-n)))
  /-- They have the same verbs, labels and lexemes. -/
  content : s.statements.map Statement.content = ss.map Statement.content
  /-- Their places are `n` characters further ahead. -/
  span : s.statements.map Statement.span = ss.map fun q => q.span.shift (-n)

/-- A script with such statements is a part when they make one group. -/
theorem isPart_of_statements {s : Script} {n : Int} {ss : List Statement}
    (h : s.statements = ss.map (Statement.map (Token.shift (-n))))
    (hgroups : s.groups.length = 1) : s.IsPart n ss where
  length_groups := hgroups
  statements := h
  content := by
    rw [h, List.map_map]
    exact List.map_congr_left fun q _ => q.content_map (Token.keepsLexemes_shift _)
  span := by
    rw [h, List.map_map]
    exact List.map_congr_left fun q _ => q.span_map_shift _

variable {t : Text}

/-- The text of a statement is read as this statement. -/
theorem isPart_of_mem_statements {s : Statement} (hs : s ∈ (ofText t).statements) :
    (ofText (t.slice s.span.start s.span.stop)).IsPart s.span.start [s] := by
  obtain ⟨before, after, hsplit⟩ := List.append_of_mem hs
  obtain ⟨front, inner, back, rfl, hstart, hstop, hinner⟩ :=
    exists_window (List.cons_ne_nil s []) hsplit
  rw [List.head_singleton] at hstart
  rw [List.getLast_singleton] at hstop
  rw [hstart, hstop, Text.slice_append]
  refine isPart_of_statements hinner ?_
  show (Group.ofStatements (ofText inner).statements).length = 1
  rw [hinner, List.map_singleton, Group.ofStatements, Group.gather]
  split <;> rfl

/-- A group takes a part of the text, which is read as this group. -/
theorem exists_of_mem_groups {g : Group} (hg : g ∈ (ofText t).groups) :
    ∃ front inner back : Text, t = front ++ (inner ++ back) ∧
      g.span = ⟨front.length, (front.length + inner.length : Nat)⟩ ∧
      (ofText inner).groups = [g.map (Token.shift (-front.length))] := by
  obtain ⟨⟨before, after, hsplit⟩, hgroup⟩ := Group.exists_of_mem_ofStatements hg
  obtain ⟨front, inner, back, ht, hstart, hstop, hinner⟩ := exists_window g.nonempty hsplit
  refine ⟨front, inner, back, ht, ?_, ?_⟩
  · rw [Group.span, Group.first, Group.last, hstart, hstop]
  · show Group.ofStatements (ofText inner).statements = _
    rw [hinner, Group.ofStatements_map (Token.keepsLexemes_shift _).alike, hgroup]
    rfl

end Script

open Script

namespace Runnable

/-- What is run at an offset that a group covers is the text of the group, when that starts with no
    qualifier. -/
theorem find_of_covers {t v : Text} {g : Group} (hg : g ∈ (ofText t).groups) {offset : Int}
    (hcovers : g.span.covers offset = true) (hv : t.slice g.span.start g.span.stop = v)
    (hplain : ∀ q ∈ Qualifier.written, q.mark.isPrefixOf (Unicode.lower v) = false) :
    find t (some offset) none = ⟨.statement, v, some g.first, some g.span⟩ := by
  have hsplit : Qualifier.split v = (.statement, v) := by
    have hnone : Qualifier.written.find? (fun q => q.mark.isPrefixOf (Unicode.lower v)) = none :=
      List.find?_eq_none.mpr fun q hq => by simp [hplain q hq]
    rw [Qualifier.split, hnone]
  show (ofCursor t offset).getD nothing = _
  rw [ofCursor, groupAt?_eq_some hg hcovers]
  simp only [Option.map_some, hv, hsplit, Option.getD_some]

/-- The text of each statement is read as this statement, in a single group, and the text of each
    group as this group. So what is run at an offset that a group covers, unless its text starts with
    a qualifier, is the text of the group, and there the same is run from the start. -/
theorem find_alone (t : Text) :
    (∀ s ∈ (ofText t).statements,
      (ofText (t.slice s.span.start s.span.stop)).IsPart s.span.start [s]) ∧
    ∀ g ∈ (ofText t).groups, ∀ v, v = t.slice g.span.start g.span.stop →
      (ofText v).IsPart g.span.start g.statements ∧
      (ofText v).groups.map Group.content = [g.content] ∧
      ∀ offset, g.span.covers offset = true →
        (∀ q ∈ Qualifier.written, q.mark.isPrefixOf (Unicode.lower v) = false) →
        find t (some offset) none = ⟨.statement, v, some g.first, some g.span⟩ ∧
          ∃ head, find v (some 0) none = ⟨.statement, v, some head, some ⟨0, v.length⟩⟩ ∧
            head.verb? = g.first.verb? ∧ head.reference? = g.first.reference? := by
  refine ⟨fun s hs => isPart_of_mem_statements hs, fun g hg v hv => ?_⟩
  obtain ⟨front, inner, back, rfl, hspan, hgroups⟩ := exists_of_mem_groups hg
  have hkeeps := Token.keepsLexemes_shift (-front.length)
  obtain rfl : v = inner := by rw [hv, hspan, Text.slice_append]
  have hmoved : (g.map (Token.shift (-front.length))).span = ⟨0, v.length⟩ := by
    simp only [Group.span_map_shift, hspan, Span.shift, Span.mk.injEq]
    omega
  have hstatements : (ofText v).statements
      = g.statements.map (Statement.map (Token.shift (-front.length))) := by
    rw [← Group.flatMap_ofStatements (ofText v).statements]
    show List.flatMap _ (ofText v).groups = _
    rw [hgroups, List.flatMap_singleton]
    rfl
  refine ⟨?_, ?_, fun offset hcovers hplain => ⟨find_of_covers hg hcovers hv.symm hplain, ?_⟩⟩
  · rw [hspan]
    exact isPart_of_statements hstatements (by rw [hgroups, List.length_singleton])
  · rw [hgroups, List.map_singleton, g.content_map hkeeps]
  · -- The group starts the text, and ends it.
    have hmem : g.map (Token.shift (-front.length)) ∈ (ofText v).groups := by simp [hgroups]
    have hcovers' : (g.map (Token.shift (-front.length))).span.covers 0 = true := by
      have hpos := start_lt_stop hmem
      rw [hmoved] at hpos ⊢
      simpa [Span.covers] using hpos
    have hwhole : v.slice (g.map (Token.shift (-front.length))).span.start
        (g.map (Token.shift (-front.length))).span.stop = v := by
      have hslice := Text.slice_append [] v []
      rw [List.nil_append, List.append_nil, List.length_nil, Nat.zero_add] at hslice
      rw [hmoved]
      exact hslice
    refine ⟨g.first.map (Token.shift (-front.length)), ?_, g.first.verb?_map hkeeps.alike,
      g.first.reference?_map hkeeps⟩
    rw [find_of_covers hmem hcovers' hwhole hplain, hmoved, Group.first_map]

/-- A body with a label, which is not closed, behind another statement. -/
theorem find_alone_body :
    ∃ g ∈ (ofText "set a = 1; l: begin not /**/ atomic declare b int; set c = 'd".toList).groups,
      g.span = ⟨11, 61⟩ ∧
      find "set a = 1; l: begin not /**/ atomic declare b int; set c = 'd".toList (some 40) none
        = ⟨.statement, "l: begin not /**/ atomic declare b int; set c = 'd".toList, some g.first,
            some g.span⟩ ∧
      ∃ head, find "l: begin not /**/ atomic declare b int; set c = 'd".toList (some 0) none
          = ⟨.statement, "l: begin not /**/ atomic declare b int; set c = 'd".toList, some head,
            some ⟨0, 50⟩⟩ ∧
        head.verb? = g.first.verb? ∧ head.reference? = g.first.reference? := by
  obtain ⟨g, hg⟩ : ∃ g, (ofText
      "set a = 1; l: begin not /**/ atomic declare b int; set c = 'd".toList).groups[1]? = some g :=
    Option.isSome_iff_exists.mp (by decide +kernel)
  have hspan : (some g).map Group.span = some ⟨11, 61⟩ := by
    rw [← hg]
    decide +kernel
  have hspan : g.span = ⟨11, 61⟩ := Option.some.inj hspan
  have hmem := List.mem_of_getElem? hg
  have hv : "l: begin not /**/ atomic declare b int; set c = 'd".toList = Text.slice
      "set a = 1; l: begin not /**/ atomic declare b int; set c = 'd".toList g.span.start
        g.span.stop := by
    rw [hspan]
    decide +kernel
  have h := ((find_alone _).2 g hmem _ hv).2.2 40 (by rw [hspan]; decide) (by decide +kernel)
  exact ⟨g, hmem, hspan, h⟩

end Runnable

end SqlScript
