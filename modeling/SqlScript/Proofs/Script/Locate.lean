import SqlScript.Proofs.Script.Split
import SqlScript.Proofs.Token.Tiling
import SqlScript.Script.Locate

namespace SqlScript

/-!
# The group at an offset

Groups take disjoint places of a text, in order, so that binary search finds the group whose place
covers an offset.

* `Span.Reaches` — whether a place is the one of a sequence of tokens; places of tokens that follow
  each other do not overlap;
* `Script.disjoint_groups` and `Script.disjoint_statements` — each group ends before the next one
  starts, and so does each statement;
* `Script.groupIndex?_eq_some_iff` — a group is found at the offsets that it covers, and only there.
-/

/-! ### Places -/

/-- Whether tokens are in order: each one takes at least one character, and ends before the next one
    starts. -/
structure Token.InOrder (ts : List Token) : Prop where
  start_lt_stop : ∀ u ∈ ts, u.span.start < u.span.stop
  disjoint : ts.Pairwise fun u v => u.span.stop ≤ v.span.start

namespace Token.InOrder

/-- Some of the tokens are in order when all are. -/
theorem sublist {ts us : List Token} (h : InOrder ts) (hus : us.Sublist ts) : InOrder us :=
  ⟨fun u hu => h.start_lt_stop u (hus.subset hu), h.disjoint.sublist hus⟩

end Token.InOrder

/-- The tokens of a text are in order. -/
theorem Token.inOrder_scan (t : Text) : InOrder (scan t) :=
  ⟨fun u hu => ((tiles_scanFrom 0 t).bounds u hu).2.1, (tiles_scanFrom 0 t).disjoint⟩

/-- Whether the place is the one of the tokens, from the first one to the last one. -/
structure Span.Reaches (p : Span) (ts : List Token) : Prop where
  start : ∃ u ∈ ts.head?, p.start = u.span.start
  stop : ∃ u ∈ ts.getLast?, p.stop = u.span.stop

namespace Span.Reaches

open Token

variable {p q : Span} {ts us : List Token}

/-- All of the tokens are in their place. -/
theorem bounds (h : p.Reaches ts) (ho : InOrder ts) :
    ∀ u ∈ ts, p.start ≤ u.span.start ∧ u.span.stop ≤ p.stop := by
  intro u hu
  obtain ⟨⟨first, hfirst, hstart⟩, last, hlast, hstop⟩ := h
  obtain ⟨rest, hrest⟩ := List.head?_eq_some_iff.mp hfirst
  obtain ⟨front, hfront⟩ := List.getLast?_eq_some_iff.mp hlast
  have hpos := ho.start_lt_stop
  constructor
  · have hdisjoint := ho.disjoint
    rw [hrest] at hu hdisjoint hpos
    rcases List.mem_cons.mp hu with rfl | hu
    · exact Int.le_of_eq hstart
    · have := (List.pairwise_cons.mp hdisjoint).1 u hu
      have := hpos first (by simp)
      omega
  · have hdisjoint := ho.disjoint
    rw [hfront] at hu hdisjoint hpos
    rcases List.mem_append.mp hu with hu | hu
    · have := (List.pairwise_append.mp hdisjoint).2.2 u hu last (by simp)
      have := hpos last (by simp)
      omega
    · obtain rfl := List.mem_singleton.mp hu
      exact Int.le_of_eq hstop.symm

/-- The place of tokens takes at least one character. -/
theorem start_lt_stop (h : p.Reaches ts) (ho : InOrder ts) : p.start < p.stop := by
  obtain ⟨u, hu, -⟩ := h.start
  have hmem := List.mem_of_head? hu
  have hbounds := h.bounds ho u hmem
  have hpos := ho.start_lt_stop u hmem
  omega

/-- The place of some of the tokens is within the place of all of them. -/
theorem within (h : p.Reaches ts) (ho : InOrder ts) (hq : q.Reaches us) (hus : us ⊆ ts) :
    p.start ≤ q.start ∧ q.stop ≤ p.stop := by
  obtain ⟨⟨u, hu, hstart⟩, v, hv, hstop⟩ := hq
  rw [hstart, hstop]
  exact ⟨(h.bounds ho u (hus (List.mem_of_head? hu))).1,
    (h.bounds ho v (hus (List.mem_of_getLast? hv))).2⟩

/-- The places of parts that follow each other do not overlap. -/
theorem disjoint {α : Type} {l : List α} {tokens : α → List Token} {place : α → Span}
    (h : ∀ a, (place a).Reaches (tokens a)) (ho : InOrder (l.flatMap tokens)) :
    l.Pairwise fun a b => (place a).stop ≤ (place b).start := by
  refine (List.pairwise_flatMap.mp ho.disjoint).2.imp fun {a b} hab => ?_
  obtain ⟨u, hu, hstop⟩ := (h a).stop
  obtain ⟨v, hv, hstart⟩ := (h b).start
  rw [hstop, hstart]
  exact hab u (List.mem_of_getLast? hu) v (List.mem_of_head? hv)

end Span.Reaches

/-- A statement takes the place of its tokens. -/
theorem Statement.reaches (s : Statement) : s.span.Reaches s.tokens where
  start := ⟨_, List.head?_eq_some_head s.nonempty, rfl⟩
  stop := ⟨_, List.getLast?_eq_some_getLast s.nonempty, rfl⟩

namespace Group

/-- The tokens of the statements of a group. -/
def tokens (g : Group) : List Token := g.statements.flatMap (·.tokens)

/-- A group takes the place of its tokens. -/
theorem reaches (g : Group) : g.span.Reaches g.tokens where
  start := by
    have hsplit : g.statements = g.first :: g.statements.tail :=
      (List.cons_head_tail g.nonempty).symm
    refine ⟨g.first.tokens.head g.first.nonempty, ?_, rfl⟩
    rw [tokens, hsplit, List.flatMap_cons, List.head?_append,
      List.head?_eq_some_head g.first.nonempty]
    rfl
  stop := by
    have hsplit : g.statements = g.statements.dropLast ++ [g.last] :=
      (List.dropLast_concat_getLast g.nonempty).symm
    refine ⟨g.last.tokens.getLast g.last.nonempty, ?_, rfl⟩
    rw [tokens, hsplit, List.flatMap_append, List.flatMap_singleton, List.getLast?_append,
      List.getLast?_eq_some_getLast g.last.nonempty]
    rfl

end Group

namespace Script

variable {t : Text} {g : Group} {s : Statement}

/-- The statements hold tokens of the text, in order. -/
theorem inOrder_statements (t : Text) : Token.InOrder ((ofText t).statements.flatMap (·.tokens)) :=
  (Token.inOrder_scan t).sublist (Statement.flatMap_tokens_sublist _)

/-- The groups hold the statements, in order. -/
theorem flatMap_statements (t : Text) :
    (ofText t).groups.flatMap (·.statements) = (ofText t).statements :=
  Group.flatMap_ofStatements _

/-- The groups hold tokens of the text, in order. -/
theorem inOrder_groups (t : Text) : Token.InOrder ((ofText t).groups.flatMap Group.tokens) := by
  have htokens : (ofText t).groups.flatMap Group.tokens
      = ((ofText t).groups.flatMap (·.statements)).flatMap (·.tokens) := List.flatMap_assoc.symm
  rw [htokens, flatMap_statements]
  exact inOrder_statements t

/-- The tokens of a group are in order. -/
theorem inOrder_of_mem_groups (hg : g ∈ (ofText t).groups) : Token.InOrder g.tokens :=
  (inOrder_groups t).sublist (List.sublist_flatten_of_mem (List.mem_map_of_mem hg))

/-- The tokens of a statement are in order. -/
theorem inOrder_of_mem_statements (hs : s ∈ (ofText t).statements) : Token.InOrder s.tokens :=
  (Token.inOrder_scan t).sublist (Statement.tokens_sublist hs)

/-- A group takes at least one character. -/
theorem start_lt_stop (hg : g ∈ (ofText t).groups) : g.span.start < g.span.stop :=
  g.reaches.start_lt_stop (inOrder_of_mem_groups hg)

/-- Each group ends before the next one starts. -/
theorem disjoint_groups (t : Text) :
    (ofText t).groups.Pairwise fun g h => g.span.stop ≤ h.span.start :=
  Span.Reaches.disjoint Group.reaches (inOrder_groups t)

/-- Each statement ends before the next one starts. -/
theorem disjoint_statements (t : Text) :
    (ofText t).statements.Pairwise fun s s' => s.span.stop ≤ s'.span.start :=
  Span.Reaches.disjoint Statement.reaches (inOrder_statements t)

/-! ### The search for a group -/

/-- A group is found at an offset if and only if it covers the offset. -/
theorem groupIndex?_eq_some_iff {offset : Int} {n : Nat} :
    (ofText t).groupIndex? offset = some n ↔
      ∃ g, (ofText t).groups[n]? = some g ∧ g.span.covers offset = true := by
  constructor
  · intro h
    unfold groupIndex? at h
    split at h
    next => contradiction
    next m hindex =>
      split at h
      next hany =>
        obtain rfl := Option.some.inj h
        obtain ⟨g, hg, hstop⟩ := (Option.any_eq_true _ _).mp hany
        -- The search does not stop in front of a group that starts behind the offset.
        have hstart := (firstIndex_isBoundary _ (Nat.zero_le _)).2.2.1 m (Nat.zero_le m) hindex.symm
        rw [hg, Option.any_some] at hstart
        refine ⟨g, hg, ?_⟩
        simp only [decide_eq_true_eq, decide_eq_false_iff_not] at hstart hstop
        simp only [Span.covers, Bool.and_eq_true, decide_eq_true_eq]
        omega
      next => contradiction
  · rintro ⟨g, hget, hcovers⟩
    obtain ⟨hstart, hstop⟩ : g.span.start ≤ offset ∧ offset < g.span.stop := by
      simpa [Span.covers] using hcovers
    obtain ⟨hn, hg⟩ := List.getElem?_eq_some_iff.mp hget
    have hdisjoint := List.pairwise_iff_getElem.mp (disjoint_groups t)
    have hindex : (ofText t).groupsUpTo offset = n + 1 := by
      refine firstIndex_eq (by omega) (by omega) (fun i _ hi => ?_) fun i hi hlength => ?_
      · -- The groups up to this one start at the offset or before it.
        have hlength : i < (ofText t).groups.length := by omega
        rw [List.getElem?_eq_getElem hlength, Option.any_some, decide_eq_false_iff_not]
        rcases Nat.lt_succ_iff_lt_or_eq.mp hi with hlt | rfl
        · have hbefore := hdisjoint i n hlength hn hlt
          have hpos := start_lt_stop (List.getElem_mem hlength)
          rw [hg] at hbefore
          omega
        · rw [hg]
          omega
      · -- Those behind it start behind its end.
        have hbehind := hdisjoint n i hn hlength (by omega)
        rw [List.getElem?_eq_getElem hlength, Option.any_some, decide_eq_true_eq]
        rw [hg] at hbehind
        omega
    unfold groupIndex?
    rw [hindex]
    simp only [hget, Option.any_some, hstop, decide_true, if_true]

/-- A group is found at every offset that it covers. -/
theorem groupAt?_eq_some (hg : g ∈ (ofText t).groups) {offset : Int}
    (hcovers : g.span.covers offset = true) : (ofText t).groupAt? offset = some g := by
  obtain ⟨n, hn⟩ := List.getElem?_of_mem hg
  rw [groupAt?, groupIndex?_eq_some_iff.mpr ⟨g, hn, hcovers⟩, Option.bind_some, hn]

end Script

end SqlScript
