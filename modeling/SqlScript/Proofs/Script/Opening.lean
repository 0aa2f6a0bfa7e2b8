import Mathlib.Data.List.Basic
import SqlScript.Proofs.Script.Ended
import SqlScript.Proofs.Script.Segment

namespace SqlScript

/-!
# The word that ends a statement

A statement that opens a body ends with the word that opens it. Whatever comes behind it, the same
statement is read of its tokens, unless it ends with `BEGIN` and what comes behind starts with
`ATOMIC`.

* `Splitter.OpensWith` — what is known of the word that opens a body, and of the tokens behind it;
* `Statement.exists_of_run_opening` — a statement that opens a body ends with such a word;
* `Statement.run_opening_iff` — in front of which tokens such a statement is read;
* `Statement.Reads.of_append` — how the first one of some statements was read.
-/

namespace Splitter

/-! ### The last word -/

/-- Whether the statement that is being read opens a body with the token that comes next, and ends
    there. -/
structure OpensWith (s : Splitter) (t : Token) (rest : List Token) : Prop where
  isBareWord : t.kind.isBareWord = true
  cases : s.cases = 0
  spells : t.spells "ATOMIC" = true ∨ t.spells "BEGIN" = true ∧ atomicLength rest = 0 ∨
    opensBody (s.current ++ [t]) t = true

/-- A word behind which nothing is left to be waited for opens a body. -/
theorem opensWith_of_readWord {s : Splitter} {t : Token} {rest : List Token}
    (hword : t.kind.isBareWord = true) (hs : s.awaited = none)
    (hzero : ({ s with current := s.current ++ [t] }.readWord t rest).awaited = some 0) :
    s.OpensWith t rest := by
  unfold readWord at hzero
  by_cases hcase : t.spells "CASE" = true
  · rw [if_pos hcase] at hzero
    exact absurd (hs.symm.trans hzero) (by simp)
  rw [if_neg hcase] at hzero
  by_cases hend : (t.spells "END" && decide (0 < s.cases)) = true
  · rw [if_pos hend] at hzero
    exact absurd (hs.symm.trans hzero) (by simp)
  rw [if_neg hend] at hzero
  by_cases hcases : 0 < s.cases
  · rw [if_pos hcases] at hzero
    exact absurd (hs.symm.trans hzero) (by simp)
  rw [if_neg hcases] at hzero
  -- Outside of all expressions it is `BEGIN`, or a word that opens a conditional body.
  refine ⟨hword, Nat.eq_zero_of_not_pos hcases, .inr ?_⟩
  by_cases hbegin : t.spells "BEGIN" = true
  · rw [if_pos hbegin] at hzero
    exact .inl ⟨hbegin, Option.some.inj hzero⟩
  rw [if_neg hbegin] at hzero
  by_cases hbody : opensBody (s.current ++ [t]) t = true
  · exact .inr hbody
  · rw [if_neg hbody] at hzero
    exact absurd (hs.symm.trans hzero) (by simp)

/-- The word with which a statement ends, no semicolon being behind it, opens a body. -/
theorem Sound.opensWith {s : Splitter} {t : Token} {rest : List Token} (h : s.Sound (t :: rest))
    (hread : t.IsRead) (hzero : (s.add t rest).awaited = some 0) : s.OpensWith t rest := by
  cases hs : s.awaited with
  | some count =>
    have hawaits := h.awaits count hs
    obtain ⟨hadd, ⟨-, -, hatomic, -⟩ | hmore⟩ := hawaits.add hs hread
    · exact ⟨hread.isBareWord_of_spells (by decide) hatomic, hawaits.cases, .inl hatomic⟩
    · -- More tokens would be waited for.
      rw [hadd] at hzero
      obtain ⟨middle, -, -, -, hcount, -⟩ := hmore.words
      have hnone : count - 1 = 0 := Option.some.inj hzero
      omega
  | none =>
    by_cases hword : s.parens = 0 ∧ t.kind.isBareWord = true
    · have hadd := add_of_isLevel (Token.isLevel_of_isBareWord hword.2) rest hs
      rw [if_pos hword] at hadd
      exact opensWith_of_readWord hword.2 hs (hadd ▸ hzero)
    · rw [awaited_add_of_not_word hs hword rest] at hzero
      exact absurd hzero (by simp)

/-- The token behind which a statement ends that opens a body is the word that opens it. -/
theorem Sound.opensWith_of_step {s : Splitter} {t : Token} {rest : List Token} {q : Statement}
    (h : s.Sound (t :: rest)) (hread : t.IsRead) (hstep : (s.step t rest).1 = [(q, .opening)]) :
    s.OpensWith t rest := by
  refine h.opensWith hread ?_
  by_contra hzero
  unfold Splitter.step at hstep
  by_cases hend : s.endsAt t = true
  · -- A semicolon opens nothing.
    rw [if_pos hend] at hstep
    obtain ⟨p, -, hp⟩ := List.map_eq_singleton_iff.mp hstep
    have he : Terminator.semicolon = .opening := congrArg Prod.snd hp
    exact absurd he (by decide)
  · rw [if_neg hend] at hstep
    simp only [if_neg hzero] at hstep
    exact absurd hstep (by simp)

namespace OpensWith

variable {s : Splitter} {t : Token} {rest : List Token}

/-- The word is no comment. -/
theorem not_isComment (h : s.OpensWith t rest) : t.isComment = false :=
  Token.not_isComment_of_isBareWord h.isBareWord

/-- The word is one of those that open a body. -/
theorem spells_eq_false (h : s.OpensWith t rest) {w : String}
    (hw : w ∉ ["ATOMIC", "BEGIN", "THEN", "DO", "ELSE", "LOOP", "REPEAT"]) :
    t.spells w = false := by
  by_contra hspells
  rw [Bool.not_eq_false] at hspells
  simp only [List.mem_cons, not_or] at hw
  rcases h.spells with hatomic | ⟨hbegin, -⟩ | hbody
  · rw [Token.spells_eq_false hspells "ATOMIC" hw.1] at hatomic
    exact absurd hatomic (by decide)
  · rw [Token.spells_eq_false hspells "BEGIN" hw.2.1] at hbegin
    exact absurd hbegin (by decide)
  · rw [opensBody_eq_false_of_spells hspells (by simpa using hw.2.2)] at hbody
    exact absurd hbody (by decide)

/-- Behind a `BEGIN` with which the statement ends there is no `ATOMIC`. -/
theorem atomicLength_eq_zero (h : s.OpensWith t rest) (hbegin : t.spells "BEGIN" = true) :
    atomicLength rest = 0 := by
  rcases h.spells with hatomic | ⟨-, hlength⟩ | hbody
  · rw [Token.spells_eq_false hbegin "ATOMIC" (by decide)] at hatomic
    exact absurd hatomic (by decide)
  · exact hlength
  · rw [opensBody_eq_false_of_spells hbegin (by decide)] at hbody
    exact absurd hbody (by decide)

end OpensWith

end Splitter

namespace Statement

open Splitter

/-- A statement that opens a body is read up to a word that opens it, and ends with that. -/
theorem exists_of_run_opening {s : Statement} {rest : List Token}
    (h : run rest .start s.tokens = ([(s, .opening)], .start))
    (hread : ∀ u ∈ s.tokens, u.IsRead) : ∃ state t, s.tokens = state.current ++ [t] ∧
      run (t :: rest) .start state.current = ([], state) ∧
      state.step t rest = ([(s, .opening)], .start) ∧ state.OpensWith t rest := by
  obtain ⟨before, t, htokens⟩ := (List.eq_nil_or_concat' s.tokens).resolve_left s.nonempty
  have ht : t.IsRead := hread t (by simp [htokens])
  have hsound : (run (t :: rest) .start before).2.Sound (t :: rest) :=
    (sound_start _).run fun u hu => hread u (by simp [htokens, hu])
  have hall := flatMap_tokens_run (t :: rest) .start before
  rw [htokens, run_append, List.singleton_append, run, run, List.append_nil] at h
  cases hdone : run (t :: rest) .start before with
  | mk ended state =>
    rw [hdone] at h hsound hall
    obtain ⟨hended, hnext⟩ := Prod.mk.inj h
    cases ended with
    | nil =>
      have hstep : state.step t rest = ([(s, .opening)], .start) := Prod.ext hended hnext
      obtain rfl : state.current = before := by
        have hforms := hsound.stepsTo ht
        rw [hstep] at hforms
        cases hforms with
        | opens hq => exact List.append_cancel_right (hq.symm.trans htokens)
      exact ⟨state, t, htokens, hdone, hstep, hsound.opensWith_of_step ht hended⟩
    | cons p ps =>
      -- The statement would have ended in front of its last token.
      obtain ⟨rfl, -⟩ := List.cons.inj hended
      have hlength := congrArg List.length hall
      have hle := (unended_sublist Token.kind 0 before).length_le
      rw [List.flatMap_cons, htokens, show start.current = [] from rfl,
        show start.parens = 0 from rfl] at hlength
      simp only [List.length_append, List.length_cons, List.length_nil] at hlength
      omega

/-- Whether the last word of the statement is `BEGIN`. -/
def endsWithBegin (s : Statement) : Bool :=
  s.significant.getLast?.any fun t => t.spells "BEGIN"

/-- A statement that ends with `BEGIN` opens a body. -/
theorem opener?_of_endsWithBegin {s : Statement} (h : s.endsWithBegin = true) :
    s.opener? = some .BEGIN := by
  obtain ⟨t, ht, hbegin⟩ := (Option.any_eq_true ..).mp h
  obtain ⟨before, hs⟩ := List.getLast?_eq_some_iff.mp ht
  rw [opener?_of_significant hs, openerAt?_begin hbegin]

/-- The last token of a statement that ends with no comment. -/
theorem getLast?_significant {s : Statement} {before : List Token} {t : Token}
    (hs : s.tokens = before ++ [t]) (ht : t.isComment = false) :
    s.significant.getLast? = some t := by
  rw [significant_of_last hs ht, List.getLast?_concat]

/-- Whether the last word is `BEGIN` is told by the last token, when that is no comment. -/
theorem endsWithBegin_eq {s : Statement} {before : List Token} {t : Token}
    (hs : s.tokens = before ++ [t]) (ht : t.isComment = false) :
    s.endsWithBegin = t.spells "BEGIN" := by
  rw [endsWithBegin, getLast?_significant hs ht]
  rfl

/-- A statement that opens a body is read in front of other tokens in the same way, unless it ends
    with a `BEGIN` to which an `ATOMIC` among them belongs. -/
theorem run_opening_iff {s : Statement} {rest : List Token} (us : List Token)
    (h : run rest .start s.tokens = ([(s, .opening)], .start))
    (hread : ∀ u ∈ s.tokens, u.IsRead) :
    run us .start s.tokens = ([(s, .opening)], .start)
      ↔ (s.endsWithBegin = true → atomicLength us = 0) := by
  constructor
  · intro hus hends
    obtain ⟨state, t, htokens, -, -, hopens⟩ := exists_of_run_opening hus hread
    exact hopens.atomicLength_eq_zero (endsWithBegin_eq htokens hopens.not_isComment ▸ hends)
  · intro hus
    obtain ⟨state, t, htokens, hbefore, hstep, hopens⟩ := exists_of_run_opening h hread
    rw [endsWithBegin_eq htokens hopens.not_isComment] at hus
    -- In front of its last word it is read alike, as the look-ahead does not go beyond that.
    have hsame : run (t :: us) .start state.current = ([], state) := by
      rw [← hbefore]
      refine run_congr (fun front back _ => ?_) .start
      have hnot : t.spells "NOT" = false := hopens.spells_eq_false (by decide)
      rw [atomicLength_append_cons hopens.not_isComment hnot back us,
        atomicLength_append_cons hopens.not_isComment hnot back rest]
    have hadd : state.add t us = state.add t rest := by
      by_cases hspells : t.spells "BEGIN" = true
      · refine add_congr ?_ state t
        rw [hus hspells, hopens.atomicLength_eq_zero hspells]
      · exact add_of_not_begin ((Bool.not_eq_true _).mp hspells) state us rest
    rw [htokens, run_append, List.singleton_append, hsame, run, run, List.nil_append,
      List.append_nil, List.nil_append, step_congr hadd, hstep]

/-- A statement that ends with the word that opens its body does not consist of comments, and no
    `CASE` expression is open in it. -/
theorem closed_of_run_opening {s : Statement} {rest : List Token}
    (h : run rest .start s.tokens = ([(s, .opening)], .start))
    (hread : ∀ u ∈ s.tokens, u.IsRead) : s.significant ≠ [] ∧ s.openCases = 0 := by
  obtain ⟨state, t, htokens, hbefore, -, hopens⟩ := exists_of_run_opening h hread
  constructor
  · intro hnil
    have hlast := getLast?_significant htokens hopens.not_isComment
    rw [hnil] at hlast
    exact absurd hlast (by simp)
  · have htracked := ((tracked_start (state.current ++ t :: rest)).run
      fun u hu => hread u (by simp [htokens, hu])).2
    rw [hbefore] at htracked
    have hcase : t.spells "CASE" = false := hopens.spells_eq_false (by decide)
    have hend : t.spells "END" = false := hopens.spells_eq_false (by decide)
    -- The last word opens no expression, and closes none.
    rw [openCases, htokens, openCases_append, ← htracked.cases, hopens.cases]
    simp [SqlScript.openCases, Token.casesAfter, hcase, hend]

/-- A statement that ends with such a word is found to open a body afterwards. -/
theorem isSome_opener?_of_run_opening {s : Statement} {rest : List Token}
    (h : run rest .start s.tokens = ([(s, .opening)], .start))
    (hread : ∀ u ∈ s.tokens, u.IsRead) : s.opener?.isSome = true := by
  have hfits := ((tracked_start (s.tokens ++ rest)).run hread).1
  rw [h] at hfits
  exact ((hfits _ (List.mem_singleton_self _)).opening rfl).1

/-- A statement that ends with such a word is read of its own tokens. -/
theorem ofTokens_of_run_opening {s : Statement} {rest : List Token}
    (h : run rest .start s.tokens = ([(s, .opening)], .start))
    (hread : ∀ u ∈ s.tokens, u.IsRead) : ofTokens s.tokens = [s] := by
  have hsplit := ofTokens_append s.tokens []
  rwa [List.append_nil, run_of_opening [] h hread] at hsplit

/-- A statement in which no word is found to open a body, and no parenthesis or `CASE` expression
    is open, opens none afterwards. -/
theorem opener?_eq_none_of_run {s : Statement} {state : Splitter}
    (h : run [] .start s.tokens = ([], state)) (hs : state.current = s.tokens)
    (hread : ∀ u ∈ s.tokens, u.IsRead) (hparens : state.parens = 0) (hcases : s.openCases = 0) :
    s.opener? = none := by
  have htracked : state.Tracked [] := by
    have hrun := ((tracked_start (s.tokens ++ [])).run hread).2
    rwa [h] at hrun
  refine (htracked.opensNothing htracked.awaited_eq_none_of_nil hparens ?_).opener s hs.symm
  rw [htracked.cases, hs]
  exact hcases

/-! ### The first statement -/

/-- No semicolon outside of parentheses is part of a statement that is read of its own tokens. -/
theorem unended_of_run {s : Statement} {rest : List Token} {state : Splitter}
    (h : run rest .start s.tokens = ([], state)) (hs : state.current = s.tokens) :
    Token.Unended s.tokens := by
  have htokens := flatMap_tokens_run rest .start s.tokens
  rw [h, hs] at htokens
  exact htokens.symm

/-- No semicolon outside of parentheses is part of a statement that opens a body. -/
theorem unended_of_run_opening {s : Statement} {rest : List Token}
    (h : run rest .start s.tokens = ([(s, .opening)], .start)) : Token.Unended s.tokens := by
  have htokens := flatMap_tokens_run rest .start s.tokens
  rw [h, List.flatMap_singleton, show start.current = [] from rfl, List.append_nil] at htokens
  exact htokens.symm

/-- No semicolon outside of parentheses is part of a statement. -/
theorem Reads.unended {ts : List Token} {ss : List Statement} (h : Reads ts ss) :
    ∀ s ∈ ss, Token.Unended s.tokens := by
  induction h with
  | nil => simp
  | semicolon _ _ ih => exact ih
  | last hrun hcurrent => simpa using unended_of_run hrun hcurrent
  | ended hrun hcurrent _ _ _ ih =>
    exact List.forall_mem_cons.mpr ⟨unended_of_run hrun hcurrent, ih⟩
  | opening hrun _ ih => exact List.forall_mem_cons.mpr ⟨unended_of_run_opening hrun, ih⟩

/-- How the first one of some statements was read, when its tokens are the first ones: no word in it
    opens a body, and it ends at a semicolon or with all tokens, or it opens a body with its last
    word. -/
theorem Reads.of_append {s : Statement} {us : List Token} {ss : List Statement}
    (h : Reads (s.tokens ++ us) (s :: ss)) (hs : Token.Unended s.tokens) :
    (∃ state, run [] .start s.tokens = ([], state)) ∧ (∀ t ∈ us.head?, t.kind = .semicolon) ∨
      run us .start s.tokens = ([(s, .opening)], .start) := by
  generalize hts : s.tokens ++ us = ts at h
  cases h with
  | @semicolon t ts _ hk _ =>
    -- No statement starts with a semicolon.
    obtain ⟨u, more, htokens⟩ := List.exists_cons_of_ne_nil s.nonempty
    rw [htokens, List.cons_append, List.cons.injEq] at hts
    exact absurd (hts.1 ▸ hk) (Token.Unended.head (htokens ▸ hs))
  | last hrun _ =>
    obtain rfl : us = [] := List.append_right_eq_self.mp hts
    exact .inl ⟨⟨_, hrun⟩, by simp⟩
  | ended hrun _ _ hk _ =>
    rw [List.append_cancel_left hts]
    exact .inl ⟨⟨_, hrun⟩, by simpa using hk⟩
  | opening hrun _ =>
    rw [← List.append_cancel_left hts] at hrun
    exact .inr hrun

/-- The look-ahead does not go beyond the first statement. -/
theorem Reads.atomicLength_eq {s : Statement} {us : List Token} {ss : List Statement}
    (h : Reads (s.tokens ++ us) (s :: ss)) (hs : Token.Unended s.tokens)
    (hread : ∀ u ∈ s.tokens ++ us, u.IsRead) :
    atomicLength (s.tokens ++ us) = atomicLength s.tokens := by
  rcases h.of_append hs with ⟨-, hhead⟩ | hrun
  · cases us with
    | nil => rw [List.append_nil]
    | cons t us =>
      exact atomicLength_append_semicolon (hhead t rfl) (hread t (by simp)) s.tokens us
  · obtain ⟨state, t, htokens, -, -, hopens⟩ :=
      exists_of_run_opening hrun fun u hu => hread u (by simp [hu])
    have hnot : t.spells "NOT" = false := hopens.spells_eq_false (by decide)
    rw [htokens, List.append_assoc, List.singleton_append]
    exact atomicLength_append_cons hopens.not_isComment hnot state.current us

end Statement

end SqlScript
