import SqlScript.Proofs.Script.Cut

namespace SqlScript

/-!
# How far the look-ahead reaches

The splitter looks ahead only behind `BEGIN`. So what it makes of the first tokens of a script is
found by reading these alone, as long as the look-ahead does not reach beyond them.

* `atomicLength_of_le` — the look-ahead depends on no more tokens than it takes;
* `atomicLength_append_cons` and `atomicLength_append_semicolon` — tokens that it does not go beyond;
* `Splitter.run_congr` — what is read of a sequence of tokens depends on others by the look-ahead
  alone;
* `Splitter.Sound.run` — what is known of a statement that is being read is known after more tokens;
* `Splitter.Sound.run_eq_of_awaited_none` — what is read of the first tokens of a script does not
  depend on the others, when no token is waited for behind them.
-/

/-! ### The tokens that are looked at -/

/-- The look-ahead depends on no more tokens than it takes. -/
theorem atomicLength_of_le {ts us : List Token} (h : atomicLength (ts ++ us) ≤ ts.length) :
    atomicLength ts = atomicLength (ts ++ us) := by
  -- What is found among the four tokens that come next, in `ts` and behind it.
  have hsplit : ((ts ++ us).take 4).zipIdx.filter (fun p => !p.1.isComment)
      = ((ts.take 4).zipIdx.filter fun p => !p.1.isComment)
        ++ ((us.take (4 - ts.length)).zipIdx (ts.take 4).length).filter fun p => !p.1.isComment := by
    rw [List.take_append, List.zipIdx_append, List.filter_append, Nat.zero_add]
  have hbehind : ∀ p ∈ ((us.take (4 - ts.length)).zipIdx (ts.take 4).length).filter
      fun p => !p.1.isComment, ts.length ≤ p.2 := by
    intro p hp
    obtain ⟨u, n⟩ := p
    obtain ⟨hle, hlt, -⟩ := List.mem_zipIdx (List.mem_filter.mp hp).1
    have hlength : (us.take (4 - ts.length)).length ≤ 4 - ts.length := List.length_take_le ..
    have hfour : (ts.take 4).length = min 4 ts.length := List.length_take
    show ts.length ≤ n
    omega
  unfold atomicLength at h ⊢
  rw [hsplit] at h ⊢
  generalize ((us.take (4 - ts.length)).zipIdx (ts.take 4).length).filter
    (fun p => !p.1.isComment) = behind at h hbehind ⊢
  generalize (ts.take 4).zipIdx.filter (fun p => !p.1.isComment) = front at h ⊢
  match front, behind with
  | [], [] => rfl
  | [], (u, m) :: more =>
    have hm := hbehind (u, m) (by simp)
    simp only [List.nil_append] at h ⊢
    cases more with
    | nil => grind
    | cons q more =>
      have hq := hbehind q (by simp)
      grind
  | [(t, n)], [] => rfl
  | [(t, n)], (u, m) :: more =>
    have hm := hbehind (u, m) (by simp)
    simp only [List.cons_append, List.nil_append] at h ⊢
    grind
  | (t, n) :: (u, m) :: more, behind => rfl

/-- The look-ahead does not go beyond a token that is neither a comment nor a `NOT`. -/
theorem atomicLength_append_cons {t : Token} (ht : t.isComment = false)
    (hnot : t.spells "NOT" = false) (ts rest : List Token) :
    atomicLength (ts ++ t :: rest) = atomicLength (ts ++ [t]) := by
  have hmove : ts ++ t :: rest = ts ++ [t] ++ rest := by simp
  rw [hmove]
  refine (atomicLength_of_le ?_).symm
  rw [← hmove]
  cases hlength : atomicLength (ts ++ t :: rest) with
  | zero => exact Nat.zero_le _
  | succ n =>
    obtain ⟨middle, atomic, behind, hsplit, rfl, -, hmiddle⟩ := exists_of_atomicLength hlength
    -- Otherwise the word would be one of those in front of `ATOMIC`.
    by_contra hlt
    have hwhole : ts ++ [t] <+: middle ++ atomic :: behind := ⟨rest, by rw [← hsplit, ← hmove]⟩
    have hprefix : ts ++ [t] <+: middle :=
      List.prefix_of_prefix_length_le hwhole (List.prefix_append ..) (by omega)
    have hmem : t ∈ middle := hprefix.subset (by simp)
    rcases isComment_or_spells_not hmiddle hmem with h | h
    · rw [ht] at h
      exact absurd h (by decide)
    · rw [hnot] at h
      exact absurd h (by decide)

/-- The look-ahead does not take a semicolon. -/
theorem atomicLength_append_semicolon {t : Token} (hk : t.kind = .semicolon) (hread : t.IsRead)
    (ts rest : List Token) : atomicLength (ts ++ t :: rest) = atomicLength ts := by
  have hbare : t.kind.isBareWord = false := by rw [hk]; rfl
  have hcomment : t.isComment = false := by rw [Token.isComment, hk]; rfl
  rw [atomicLength_append_cons hcomment (hread.spells_eq_false_of_kind hbare (by decide))]
  refine (atomicLength_of_le ?_).symm
  cases hlength : atomicLength (ts ++ [t]) with
  | zero => exact Nat.zero_le _
  | succ n =>
    obtain ⟨middle, atomic, behind, hsplit, rfl, hatomic, -⟩ := exists_of_atomicLength hlength
    have htotal := congrArg List.length hsplit
    simp only [List.length_append, List.length_cons, List.length_nil] at htotal
    by_contra hlt
    -- Otherwise the semicolon would be the `ATOMIC`.
    obtain rfl : behind = [] := List.length_eq_zero_iff.mp (by omega)
    obtain ⟨-, hlast⟩ := List.append_inj' hsplit rfl
    obtain rfl : t = atomic := List.singleton_inj.mp hlast
    rw [hread.spells_eq_false_of_kind hbare (by decide)] at hatomic
    exact absurd hatomic (by decide)

namespace Splitter

/-- The tokens that follow matter only for the look-ahead. -/
theorem add_congr {following following' : List Token}
    (h : atomicLength following = atomicLength following') (s : Splitter) (t : Token) :
    s.add t following = s.add t following' := by
  unfold add readWord
  rw [h]

/-- The tokens that follow do not matter, unless some of them are waited for. -/
theorem add_eq_or_awaited (s : Splitter) (t : Token) (following following' : List Token) :
    s.add t following = s.add t following' ∨
      (s.add t following').awaited = some (atomicLength following') := by
  unfold add readWord
  grind

/-- What comes next is asked for nothing but the token that is added. -/
theorem step_congr {following following' : List Token} {s : Splitter} {t : Token}
    (h : s.add t following = s.add t following') :
    s.step t following = s.step t following' := by
  unfold step
  rw [h]

/-- The tokens that follow matter only behind `BEGIN`. -/
theorem add_of_not_begin {t : Token} (h : t.spells "BEGIN" = false) (s : Splitter)
    (following following' : List Token) : s.add t following = s.add t following' := by
  unfold add readWord
  simp only [h, Bool.false_eq_true, if_false]

/-- What is read of a sequence of tokens depends on those that come later by the look-ahead alone. -/
theorem run_congr {ts us vs : List Token} (h : ∀ front back, ts = front ++ back →
    atomicLength (back ++ us) = atomicLength (back ++ vs)) (s : Splitter) :
    run us s ts = run vs s ts := by
  induction ts generalizing s with
  | nil => rfl
  | cons t ts ih =>
    have hstep : s.step t (ts ++ us) = s.step t (ts ++ vs) :=
      step_congr (add_congr (h [t] ts rfl) s t)
    rw [run, run, hstep, ih fun front back hsplit => h (t :: front) back (by rw [hsplit]; rfl)]

/-! ### Sound states -/

/-- What is known of a statement that is being read is known after one more token. -/
theorem Sound.step {s : Splitter} {t : Token} {rest : List Token} (h : s.Sound (t :: rest))
    (hread : t.IsRead) : (s.step t rest).2.Sound rest := by
  have hstep := h.stepsTo hread
  generalize s.step t rest = next at hstep
  cases hstep with
  | goesOn _ hsound => exact hsound
  | _ => exact sound_start rest

/-- What is known of a statement that is being read is known after more tokens. -/
theorem Sound.run {s : Splitter} {ts following : List Token} (h : s.Sound (ts ++ following))
    (hread : ∀ t ∈ ts, t.IsRead) : (run following s ts).2.Sound following := by
  induction ts generalizing s with
  | nil => exact h
  | cons t ts ih => exact ih (h.step (hread t (by simp))) fun u hu => hread u (by simp [hu])

/-- No semicolon is waited for. -/
theorem Sound.awaited_eq_none {s : Splitter} {t : Token} {rest : List Token}
    (h : s.Sound (t :: rest)) (hk : t.kind = .semicolon) (hread : t.IsRead) : s.awaited = none := by
  cases hs : s.awaited with
  | none => rfl
  | some count =>
    have hbare : t.kind.isBareWord = false := by rw [hk]; rfl
    have hhead := (h.awaits count hs).head
    rw [Token.isComment, hk, hread.spells_eq_false_of_kind hbare (by decide),
      hread.spells_eq_false_of_kind hbare (by decide)] at hhead
    exact absurd hhead (by decide)

/-- Nothing is waited for at the end of the tokens. -/
theorem Sound.awaited_eq_none_of_nil {s : Splitter} (h : s.Sound []) : s.awaited = none := by
  cases hs : s.awaited with
  | none => rfl
  | some count =>
    obtain ⟨middle, atomic, behind, hsplit, -⟩ := (h.awaits count hs).words
    simp at hsplit

/-- A token that is waited for, but is not the last one of these, ends nothing. -/
theorem Sound.step_of_awaited {s : Splitter} {t : Token} {rest : List Token} {count : Nat}
    (h : s.Sound (t :: rest)) (hread : t.IsRead) (hs : s.awaited = some (count + 2)) :
    (s.step t rest).2.awaited = some (count + 1) := by
  have hend : s.endsAt t = false := by
    by_contra hend
    rw [Bool.not_eq_false] at hend
    rw [h.awaited_eq_none (endsAt_iff.mp hend).1 hread] at hs
    exact absurd hs (by simp)
  have hadd := ((h.awaits _ hs).add hs hread).1
  unfold Splitter.step
  rw [hend, hadd]
  rfl

/-- Tokens that are waited for beyond a sequence are still waited for behind it. -/
theorem Sound.run_of_awaited {s : Splitter} {ts following : List Token} {count : Nat}
    (h : s.Sound (ts ++ following)) (hread : ∀ t ∈ ts, t.IsRead) (hs : s.awaited = some count)
    (hcount : ts.length < count) :
    (Splitter.run following s ts).2.awaited = some (count - ts.length) := by
  induction ts generalizing s count with
  | nil => exact hs
  | cons t ts ih =>
    rw [List.length_cons] at hcount
    -- The count goes down by one with each token, and does not reach zero in `ts`.
    obtain ⟨n, rfl⟩ : ∃ n, count = n + 2 := ⟨count - 2, by omega⟩
    rw [List.cons_append] at h
    have ht := hread t (by simp)
    have hnext := ih (h.step ht) (fun u hu => hread u (by simp [hu])) (h.step_of_awaited ht hs)
      (by omega)
    show (Splitter.run following (s.step t (ts ++ following)).2 ts).2.awaited = _
    rw [hnext, List.length_cons]
    congr 1
    omega

/-- Where some of the tokens that follow a token are waited for, no statement ends at it. -/
theorem Sound.step_of_atomicLength {s : Splitter} {t : Token} {rest : List Token}
    (h : s.Sound (t :: rest)) (hread : t.IsRead) (hpos : 0 < atomicLength rest)
    (hawaited : (s.add t rest).awaited = some (atomicLength rest)) :
    (s.step t rest).2.awaited = some (atomicLength rest) := by
  have hend : s.endsAt t = false := by
    by_contra hend
    rw [Bool.not_eq_false] at hend
    obtain ⟨hk, -⟩ := endsAt_iff.mp hend
    have hword : ¬(s.parens = 0 ∧ t.kind.isBareWord = true) := fun hb => by
      rw [hk] at hb
      exact absurd hb.2 (by decide)
    rw [awaited_add_of_not_word (h.awaited_eq_none hk hread) hword] at hawaited
    exact absurd hawaited (by simp)
  have hzero : (s.add t rest).awaited ≠ some 0 := by
    rw [hawaited, ne_eq, Option.some.injEq]
    omega
  unfold Splitter.step
  rw [hend]
  simp only [Bool.false_eq_true, if_false]
  rw [if_neg hzero]
  exact hawaited

/-- What is read of the first tokens of a script does not depend on those that come later, when no
    token is waited for behind them. -/
theorem Sound.run_eq_of_awaited_none {s : Splitter} {ts : List Token} (us vs : List Token)
    (h : s.Sound (ts ++ (us ++ vs))) (hread : ∀ t ∈ ts, t.IsRead)
    (hnone : (Splitter.run (us ++ vs) s ts).2.awaited = none) :
    Splitter.run us s ts = Splitter.run (us ++ vs) s ts := by
  induction ts generalizing s with
  | nil => rfl
  | cons t ts ih =>
    rw [List.cons_append] at h
    rw [Splitter.run] at hnone
    have ht := hread t (by simp)
    have hts : ∀ u ∈ ts, u.IsRead := fun u hu => hread u (by simp [hu])
    have hsound := h.step ht
    -- The look-ahead does not reach beyond `ts`, or something would be waited for behind them.
    have hadd : s.add t (ts ++ us) = s.add t (ts ++ (us ++ vs)) := by
      by_cases hle : atomicLength (ts ++ (us ++ vs)) ≤ (ts ++ us).length
      · rw [← List.append_assoc] at hle ⊢
        exact add_congr (atomicLength_of_le hle) s t
      · rw [List.length_append] at hle
        refine (add_eq_or_awaited s t _ _).resolve_right fun hawaited => ?_
        have hnext := h.step_of_atomicLength ht (by omega) hawaited
        have hbehind := hsound.run_of_awaited hts hnext (by omega)
        exact absurd (hbehind.symm.trans hnone) (by simp)
    have hstep := step_congr hadd
    rw [Splitter.run, Splitter.run, hstep, ih hsound hts hnone]

end Splitter

end SqlScript
