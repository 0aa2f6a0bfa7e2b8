import SqlScript.Proofs.Script.Run
import SqlScript.Script.Group

namespace SqlScript

/-!
# Parts of scripts read on their own

The statements that follow each other in a script are read again when the tokens from the first one
to the last one are read on their own, and statements that make a group make it on their own.

* `Statement.Reads` — how a sequence of tokens is read as statements, each of which is found by
  reading its own tokens, and `Statement.reads_ofTokens` says that it is read like this;
* `Statement.Reads.exists_window` — the tokens from one statement to another one are read as these
  and what is between them;
* `Group.exists_of_mem_ofStatements` — the statements of a group make this group.
-/

namespace Statement

open Splitter

/-- How a sequence of tokens is read as statements. What is read of the tokens of a statement does
    not depend on those behind it, unless it opens a body with the last one. -/
inductive Reads : List Token → List Statement → Prop where
  | nil : Reads [] []
  | semicolon {t : Token} {ts : List Token} {ss : List Statement} :
      t.kind = .semicolon → Reads ts ss → Reads (t :: ts) ss
  | last {s : Statement} {state : Splitter} :
      run [] .start s.tokens = ([], state) → state.current = s.tokens → Reads s.tokens [s]
  | ended {s : Statement} {state : Splitter} {t : Token} {ts : List Token} {ss : List Statement} :
      run [] .start s.tokens = ([], state) → state.current = s.tokens → state.parens = 0 →
      t.kind = .semicolon → Reads ts ss → Reads (s.tokens ++ t :: ts) (s :: ss)
  | opening {s : Statement} {ts : List Token} {ss : List Statement} :
      run ts .start s.tokens = ([(s, .opening)], .start) → Reads ts ss →
      Reads (s.tokens ++ ts) (s :: ss)

end Statement

namespace Splitter

/-- How the statement that is being read, and those that come next, are read. -/
theorem Sound.reads {s : Splitter} {rest : List Token} (h : s.Sound rest)
    (hrun : Splitter.run rest .start s.current = ([], s)) (hread : ∀ t ∈ s.current ++ rest, t.IsRead) :
    Statement.Reads (s.current ++ rest) (s.split rest) := by
  have hcurrent : ∀ t ∈ s.current, t.IsRead := fun t ht => hread t (by simp [ht])
  induction rest generalizing s with
  | nil =>
    rw [List.append_nil, split]
    by_cases hnil : s.current = []
    · rw [finish, dif_pos hnil, hnil]
      exact .nil
    · rw [finish, dif_neg hnil]
      exact .last (s := ⟨s.current, hnil⟩) hrun rfl
  | cons t rest ih =>
    have ht : t.IsRead := hread t (by simp)
    have hstart : Statement.Reads rest (start.split rest) :=
      ih (sound_start rest) rfl (fun u hu => hread u (by
        rw [show start.current = [] from rfl, List.nil_append] at hu
        simp [hu])) (by simp [start])
    have hrun' : Splitter.run rest .start (s.current ++ [t]) = s.step t rest := by
      rw [run_append, List.singleton_append, hrun, Splitter.run, Splitter.run, List.nil_append,
        List.nil_append, List.append_nil]
    have hstep := h.stepsTo ht
    rw [split_cons]
    generalize s.step t rest = next at hstep hrun'
    cases hstep with
    | skips hk hnil =>
      rw [hnil]
      exact .semicolon hk hstart
    | @ends q hk hparens hq =>
      -- Nothing is waited for at a semicolon, so the statement is read without what follows.
      have halone : Splitter.run [] .start s.current = ([], s) := by
        rw [← hrun]
        refine (sound_start _).run_eq_of_awaited_none [] (t :: rest) hcurrent ?_
        rw [List.nil_append, hrun]
        exact h.awaited_eq_none hk ht
      rw [← hq] at halone ⊢
      exact .ended halone hq.symm hparens hk hstart
    | @opens q hq =>
      have hmove : s.current ++ t :: rest = q.tokens ++ rest := by simp [hq]
      rw [hmove]
      exact .opening (hq ▸ hrun') hstart
    | goesOn _ hsound =>
      -- The tokens of the statement so far were read up to the same state.
      have hnext := Splitter.current_add s t rest
      have hmove : s.current ++ t :: rest = (s.add t rest).current ++ rest := by simp [hnext]
      rw [hmove]
      refine ih hsound (hnext ▸ hrun') (fun u hu => hread u (hmove ▸ hu)) fun u hu => ?_
      rw [hnext] at hu
      rcases List.mem_append.mp hu with hu | hu
      · exact hcurrent u hu
      · rw [List.mem_singleton.mp hu]
        exact ht

end Splitter

namespace Statement

open Splitter

/-- How the tokens of a script are read. -/
theorem reads_ofTokens {ts : List Token} (hread : ∀ t ∈ ts, t.IsRead) : Reads ts (ofTokens ts) :=
  (sound_start ts).reads rfl hread

variable {ts : List Token} {ss : List Statement}

/-- The statements that a sequence of tokens makes, from what is read of its first tokens. -/
theorem ofTokens_append (ts us : List Token) : ofTokens (ts ++ us)
    = (run us .start ts).1.map Prod.fst ++ (run us .start ts).2.split us :=
  split_append .start ts us

/-- A statement in which no word opens a body is read of its own tokens. -/
theorem ofTokens_of_run {s : Statement} {state : Splitter}
    (h : run [] .start s.tokens = ([], state)) (hs : state.current = s.tokens) :
    ofTokens s.tokens = [s] := by
  have hsplit := ofTokens_append s.tokens []
  rw [List.append_nil, h] at hsplit
  exact hsplit.trans (finish_of_current hs)

/-- A statement in which no word opens a body is read in front of a semicolon, and the others behind
    that. -/
theorem ofTokens_append_semicolon {s : Statement} {state : Splitter} {t : Token}
    (h : run [] .start s.tokens = ([], state)) (hs : state.current = s.tokens)
    (hparens : state.parens = 0) (hk : t.kind = .semicolon) (hread : t.IsRead) (us : List Token) :
    ofTokens (s.tokens ++ t :: us) = s :: ofTokens us := by
  -- The look-ahead does not take the semicolon.
  have hrun : run (t :: us) .start s.tokens = ([], state) := by
    rw [← h]
    refine run_congr (fun front back _ => ?_) .start
    rw [atomicLength_append_semicolon hk hread, List.append_nil]
  rw [ofTokens_append, hrun, List.map_nil, List.nil_append, split,
    if_pos (endsAt_iff.mpr ⟨hk, hparens⟩), finish_of_current hs]
  rfl

/-- What opens a body is read as the same statement in front of the first ones of the tokens behind
    it. -/
theorem run_of_opening {s : Statement} (us : List Token) {vs : List Token}
    (h : run (us ++ vs) .start s.tokens = ([(s, .opening)], .start))
    (hread : ∀ t ∈ s.tokens, t.IsRead) :
    run us .start s.tokens = ([(s, .opening)], .start) := by
  rw [← h]
  refine (sound_start _).run_eq_of_awaited_none us vs hread ?_
  rw [h]
  rfl

/-- Where statements are read, the last ones of them are read behind some tokens, from the first
    token of the first one of them on. -/
theorem Reads.exists_drop {before : List Statement} {s : Statement} {after : List Statement}
    (h : Reads ts ss) (hss : ss = before ++ s :: after) :
    ∃ front back, ts = front ++ back ∧ Reads back (s :: after) ∧ s.tokens <+: back := by
  -- The statement is the next one to be read when there are none before it.
  induction h generalizing before with
  | nil => simp at hss
  | @semicolon t ts ss hk _ ih =>
    obtain ⟨front, back, rfl, hrest⟩ := ih hss
    exact ⟨t :: front, back, rfl, hrest⟩
  | @last q state hrun hcurrent =>
    cases before with
    | nil =>
      obtain ⟨rfl, rfl⟩ := List.cons.inj hss
      exact ⟨[], q.tokens, rfl, .last hrun hcurrent, List.prefix_refl _⟩
    | cons => simp at hss
  | @ended q state t ts ss hrun hcurrent hparens hk hrest ih =>
    cases before with
    | nil =>
      obtain ⟨rfl, rfl⟩ := List.cons.inj hss
      exact ⟨[], q.tokens ++ t :: ts, rfl, .ended hrun hcurrent hparens hk hrest,
        List.prefix_append ..⟩
    | cons p before =>
      obtain ⟨rfl, rfl⟩ := List.cons.inj hss
      obtain ⟨front, back, rfl, hback⟩ := ih rfl
      exact ⟨q.tokens ++ t :: front, back, by simp, hback⟩
  | @opening q ts ss hrun hrest ih =>
    cases before with
    | nil =>
      obtain ⟨rfl, rfl⟩ := List.cons.inj hss
      exact ⟨[], q.tokens ++ ts, rfl, .opening hrun hrest, List.prefix_append ..⟩
    | cons p before =>
      obtain ⟨rfl, rfl⟩ := List.cons.inj hss
      obtain ⟨front, back, rfl, hback⟩ := ih rfl
      exact ⟨q.tokens ++ front, back, by simp, hback⟩

/-- Where statements are read, the first ones of them are read of the tokens up to the last token of
    the last one of them. -/
theorem Reads.exists_take {first after : List Statement} (h : Reads ts ss)
    (hfirst : first ≠ []) (hss : ss = first ++ after) (hread : ∀ t ∈ ts, t.IsRead) :
    ∃ part back, ts = part ++ back ∧ ofTokens part = first ∧
      (first.getLast hfirst).tokens <:+ part := by
  induction h generalizing first with
  | nil => simp [hfirst] at hss
  | @semicolon t ts ss hk _ ih =>
    obtain ⟨part, back, rfl, hpart, hlast⟩ := ih hfirst hss fun u hu => hread u (by simp [hu])
    refine ⟨t :: part, back, rfl, ?_, hlast.trans (List.suffix_cons ..)⟩
    rw [← hpart]
    show start.split (t :: part) = _
    rw [split, if_pos (endsAt_iff.mpr ⟨hk, rfl⟩)]
    rfl
  | @last q state hrun hcurrent =>
    obtain ⟨p, first, rfl⟩ := List.exists_cons_of_ne_nil hfirst
    obtain ⟨rfl, hnil⟩ := List.cons.inj hss
    obtain ⟨rfl, rfl⟩ := List.append_eq_nil_iff.mp hnil.symm
    exact ⟨q.tokens, [], by simp, ofTokens_of_run hrun hcurrent, List.suffix_refl _⟩
  | @ended q state t ts ss hrun hcurrent hparens hk hrest ih =>
    obtain ⟨p, first, rfl⟩ := List.exists_cons_of_ne_nil hfirst
    obtain ⟨rfl, rfl⟩ := List.cons.inj hss
    by_cases hnil : first = []
    · subst hnil
      exact ⟨q.tokens, t :: ts, rfl, ofTokens_of_run hrun hcurrent, List.suffix_refl _⟩
    · have ht : t.IsRead := hread t (by simp)
      obtain ⟨part, back, rfl, hpart, hlast⟩ := ih hnil rfl fun u hu => hread u (by simp [hu])
      refine ⟨q.tokens ++ t :: part, back, by simp, ?_, ?_⟩
      · rw [ofTokens_append_semicolon hrun hcurrent hparens hk ht, hpart]
      · rw [List.getLast_cons hnil]
        exact hlast.trans ((List.suffix_cons ..).trans (List.suffix_append ..))
  | @opening q ts ss hrun hrest ih =>
    obtain ⟨p, first, rfl⟩ := List.exists_cons_of_ne_nil hfirst
    obtain ⟨rfl, rfl⟩ := List.cons.inj hss
    have hq : ∀ u ∈ q.tokens, u.IsRead := fun u hu => hread u (by simp [hu])
    by_cases hnil : first = []
    · subst hnil
      have halone := run_of_opening [] hrun hq
      have hsplit := ofTokens_append q.tokens []
      rw [List.append_nil, halone] at hsplit
      exact ⟨q.tokens, ts, rfl, hsplit, List.suffix_refl _⟩
    · obtain ⟨part, back, rfl, hpart, hlast⟩ := ih hnil rfl fun u hu => hread u (by simp [hu])
      refine ⟨q.tokens ++ part, back, by simp, ?_, ?_⟩
      · rw [ofTokens_append, run_of_opening part hrun hq, ← hpart]
        rfl
      · rw [List.getLast_cons hnil]
        exact hlast.trans (List.suffix_append ..)

/-- Statements that follow each other are read of the tokens from the first token of the first one
    of them to the last token of the last one. -/
theorem Reads.exists_window {before part after : List Statement} (hpart : part ≠ [])
    (h : Reads ts (before ++ (part ++ after))) (hread : ∀ t ∈ ts, t.IsRead) :
    ∃ front window back, ts = front ++ (window ++ back) ∧ ofTokens window = part ∧
      (part.head hpart).tokens <+: window ∧ (part.getLast hpart).tokens <:+ window := by
  obtain ⟨s, part, rfl⟩ := List.exists_cons_of_ne_nil hpart
  obtain ⟨front, behind, rfl, hbehind, hhead⟩ := h.exists_drop (by rw [List.cons_append])
  obtain ⟨window, back, rfl, hwindow, hlast⟩ := hbehind.exists_take hpart rfl
    fun u hu => hread u (by simp [hu])
  refine ⟨front, window, back, rfl, hwindow, ?_, hlast⟩
  -- The first statement is among those that are read of the window, and so are its tokens.
  refine List.prefix_of_prefix_length_le hhead (List.prefix_append ..) ?_
  have htokens := flatMap_tokens_ofTokens window
  rw [hwindow, List.flatMap_cons] at htokens
  have hle := (unended_sublist Token.kind 0 window).length_le
  rw [← htokens, List.length_append] at hle
  show s.tokens.length ≤ window.length
  omega

end Statement

/-! ### Groups -/

namespace Group

/-- A group is made by the first statements, behind those that were gathered before, or by
    statements that follow each other among the others. -/
theorem exists_of_mem_gather {g : Group} {current : List Statement} {depth : Int}
    {ss : List Statement} (h : g ∈ gather current depth ss) :
    (∃ taken after, ss = taken ++ after ∧ g.statements = current ++ taken ∧
        gather current depth taken = [g]) ∨
      ∃ before after, ss = before ++ (g.statements ++ after) ∧ ofStatements g.statements = [g] := by
  induction ss generalizing current depth with
  | nil =>
    unfold gather at h
    by_cases hnil : current = []
    · rw [dif_pos hnil] at h
      exact absurd h (by simp)
    · rw [dif_neg hnil] at h
      obtain rfl := List.mem_singleton.mp h
      refine .inl ⟨[], [], rfl, by simp, ?_⟩
      rw [gather, dif_neg hnil]
  | cons s rest ih =>
    unfold gather at h
    -- The statement belongs to what was gathered, and ends it when no body is open behind it.
    by_cases hdepth : 0 < depth + s.depthChange
    · rw [if_pos hdepth] at h
      rcases ih h with ⟨taken, after, rfl, hg, hgather⟩ | ⟨before, after, rfl, hg⟩
      · refine .inl ⟨s :: taken, after, rfl, by rw [hg]; simp, ?_⟩
        rw [gather, if_pos hdepth]
        exact hgather
      · exact .inr ⟨s :: before, after, rfl, hg⟩
    · rw [if_neg hdepth] at h
      rcases List.mem_cons.mp h with rfl | h
      · refine .inl ⟨[s], rest, rfl, rfl, ?_⟩
        rw [gather, if_neg hdepth]
        rfl
      · rcases ih h with ⟨taken, after, rfl, hg, hgather⟩ | ⟨before, after, rfl, hg⟩
        · rw [List.nil_append] at hg
          rw [← hg] at hgather
          exact .inr ⟨[s], after, by rw [hg]; rfl, hgather⟩
        · exact .inr ⟨s :: before, after, rfl, hg⟩

/-- The statements of a group follow each other, and make this group on their own. -/
theorem exists_of_mem_ofStatements {g : Group} {ss : List Statement} (h : g ∈ ofStatements ss) :
    (∃ before after, ss = before ++ (g.statements ++ after)) ∧ ofStatements g.statements = [g] := by
  rcases exists_of_mem_gather h with ⟨taken, after, rfl, hg, hgather⟩ | ⟨before, after, hss, hg⟩
  · rw [List.nil_append] at hg
    rw [← hg] at hgather ⊢
    exact ⟨⟨[], after, rfl⟩, hgather⟩
  · exact ⟨⟨before, after, hss⟩, hg⟩

end Group

end SqlScript
