import SqlScript.Proofs.Script.Ended
import SqlScript.Proofs.Script.Label

namespace SqlScript

/-!
# Scripts without their comments

A script is read alike without its comments, as what is asked about statements and what ends them
has to do with the other tokens. There is one exception: behind a `BEGIN`, the words `ATOMIC` and
`NOT ATOMIC` are looked for in the four tokens that come next, comments included, so that they are
not found behind many comments.

* `Statement.uncommented?` — the statement without its comments;
* `Splitter.uncommented` — what was read so far, without comments;
* `Token.hidesAtomic` — whether comments keep `ATOMIC` out of the four tokens behind a `BEGIN`;
* `Splitter.Sound.step_uncommented` and `Splitter.Sound.split_uncommented_iff` — what one token and
  a sequence of tokens end without comments;
* `Script.uncommented_iff` — without its comments, a script has the same statements exactly when no
  `ATOMIC` is hidden by comments behind a `BEGIN` that opens a body.
-/

open Token (significant)

/-- The comments are left out of two sequences one after the other. -/
theorem Token.significant_append (ts us : List Token) :
    significant (ts ++ us) = significant ts ++ significant us := List.filter_append ..

/-- A token that is no comment stays. -/
theorem Token.significant_cons {t : Token} (ht : t.isComment = false) (ts : List Token) :
    significant (t :: ts) = t :: significant ts := List.filter_cons_of_pos (by simp [ht])

/-- A comment does not. -/
theorem Token.significant_comment_cons {t : Token} (ht : t.isComment = true) (ts : List Token) :
    significant (t :: ts) = significant ts := List.filter_cons_of_neg (by simp [ht])

/-- Where there are no comments, none are left out. -/
theorem Token.significant_significant (ts : List Token) :
    significant (significant ts) = significant ts := by
  simp [significant, List.filter_filter]

/-! ### Statements -/

namespace Statement

/-- The statement without its comments, unless there is nothing else. -/
def uncommented? (s : Statement) : Option Statement :=
  if h : s.significant = [] then none else some ⟨s.significant, h⟩

variable {s q : Statement}

/-- What is left of a statement are its significant tokens. -/
theorem tokens_of_uncommented? (h : s.uncommented? = some q) : q.tokens = s.significant := by
  unfold uncommented? at h
  split at h
  · exact absurd h (by simp)
  · rw [← Option.some.inj h]

/-- A statement that does not end in a comment has the same end without comments. -/
theorem uncommented?_of_concat {before : List Token} {t : Token} (ht : t.isComment = false)
    (hs : s.tokens = before ++ [t]) :
    ∃ q, s.uncommented? = some q ∧ q.tokens = Token.significant before ++ [t] := by
  have hsignificant : s.significant = Token.significant before ++ [t] := significant_of_last hs ht
  have hne : s.significant ≠ [] := by simp [hsignificant]
  exact ⟨⟨s.significant, hne⟩, dif_neg hne, hsignificant⟩

/-- Without its comments, a statement is the same in all that is asked about it. -/
theorem answersAlike_uncommented (h : s.uncommented? = some q) :
    q.AnswersAlike s ∧ q.label? = s.label? ∧ q.newSchema? = s.newSchema? := by
  have hsignificant : q.significant = s.significant := by
    rw [significant, tokens_of_uncommented? h]
    exact Token.significant_significant s.tokens
  have hgoverned : governed q.tokens = governed s.tokens :=
    congrArg (fun ts => (splitLabel ts).2) hsignificant
  have halike : q.AnswersAlike s :=
    answersAlike_of_governed hgoverned (opener?_congr hsignificant) (by rw [hsignificant])
  refine ⟨halike, ?_, ?_⟩
  · rw [label?, hsignificant, label?]
  · rw [newSchema?, halike.verb?, hsignificant, newSchema?]

end Statement

/-! ### The words behind `BEGIN` -/

namespace Token

/-- Whether the tokens start with `ATOMIC` or with `NOT ATOMIC`. -/
def startsWithAtomic : List Token → Bool
  | [] => false
  | [t] => t.spells "ATOMIC"
  | t :: u :: _ => t.spells "ATOMIC" || (t.spells "NOT" && u.spells "ATOMIC")

/-- Whether `ATOMIC` or `NOT ATOMIC` come next, but not in the next four tokens, as there are too
    many comments. -/
def hidesAtomic (following : List Token) : Bool :=
  startsWithAtomic (significant following) && !startsWithAtomic (significant (following.take 4))

/-- Two words are enough to tell. -/
theorem startsWithAtomic_append {ts : List Token} (h : 2 ≤ ts.length) (us : List Token) :
    startsWithAtomic (ts ++ us) = startsWithAtomic ts := by
  match ts, h with
  | t :: u :: ts, _ => rfl

/-- An `ATOMIC` in front starts with `ATOMIC` itself or with `NOT`. -/
theorem exists_of_startsWithAtomic {ts : List Token} (h : startsWithAtomic ts = true) :
    ∃ t us, ts = t :: us ∧ (t.spells "ATOMIC" = true ∨ t.spells "NOT" = true) := by
  match ts, h with
  | [t], h => exact ⟨t, [], rfl, .inl h⟩
  | t :: u :: ts, h =>
    refine ⟨t, u :: ts, rfl, ?_⟩
    rcases (Bool.or_eq_true _ _).mp h with hatomic | hwords
    · exact .inl hatomic
    · exact .inr (Bool.and_eq_true_iff.mp hwords).1

/-- Nothing is hidden where there are no more than two comments among the next four tokens. -/
theorem hidesAtomic_eq_false {following : List Token}
    (h : (following.take 4).countP isComment ≤ 2) : hidesAtomic following = false := by
  have hlength : (following.take 4).length
      = (following.take 4).countP isComment + (significant (following.take 4)).length := by
    rw [List.length_eq_countP_add_countP isComment, significant, List.countP_eq_length_filter,
      List.countP_eq_length_filter]
    simp
  have hsame : startsWithAtomic (significant following)
      = startsWithAtomic (significant (following.take 4)) := by
    by_cases htwo : 2 ≤ (significant (following.take 4)).length
    · conv_lhs => rw [← List.take_append_drop 4 following, significant_append]
      exact startsWithAtomic_append htwo _
    · -- There are less than four tokens, and all of them are looked at.
      have hall : following.take 4 = following := by
        rw [List.length_take] at hlength
        exact List.take_of_length_le (by omega)
      rw [hall]
  rw [hidesAtomic, hsame, Bool.and_not_self]

end Token

open Token (startsWithAtomic hidesAtomic)

/-- Words are waited for behind `BEGIN` where `ATOMIC` or `NOT ATOMIC` are among the next four
    tokens. -/
theorem atomicLength_pos_iff (ts : List Token) :
    0 < atomicLength ts ↔ startsWithAtomic (significant (ts.take 4)) = true := by
  have hfirst : ((ts.take 4).zipIdx.filter fun p => !p.1.isComment).map Prod.fst
      = significant (ts.take 4) := by
    rw [significant, ← List.zipIdx_map_fst 0 (ts.take 4), List.filter_map, List.zipIdx_map_fst]
    rfl
  unfold atomicLength
  rw [← hfirst]
  generalize (ts.take 4).zipIdx.filter (fun p => !p.1.isComment) = ps
  rcases ps with _ | ⟨⟨t, n⟩, _ | ⟨⟨u, m⟩, rest⟩⟩
  · simp [startsWithAtomic]
  · simp only [List.map_cons, List.map_nil, startsWithAtomic]
    split <;> simp_all
  · simp only [List.map_cons, startsWithAtomic, Bool.or_eq_true]
    split <;> rename_i h
    · simp [h]
    · split <;> simp_all

/-- Without comments, the words are not looked for any further. -/
theorem atomicLength_significant_pos_iff (ts : List Token) :
    0 < atomicLength (significant ts) ↔ startsWithAtomic (significant ts) = true := by
  have hsignificant : significant ((significant ts).take 4) = (significant ts).take 4 :=
    significant_of_noComment fun t ht => by
      simpa using (List.mem_filter.mp (List.mem_of_mem_take ht)).2
  rw [atomicLength_pos_iff, hsignificant]
  match significant ts with
  | [] => rfl
  | [_] => rfl
  | _ :: _ :: _ => rfl

/-- The tokens up to `ATOMIC`. -/
theorem take_words {middle : List Token} {n : Nat} (h : middle.length = n) (atomic : Token)
    (rest : List Token) : (middle ++ atomic :: rest).take (n + 1) = middle ++ [atomic] := by
  rw [← h, List.append_cons]
  exact List.take_left' (by simp)

/-- Where nothing is hidden, the same words are waited for without comments. -/
theorem atomicLength_significant {following : List Token} (hread : ∀ t ∈ following, t.IsRead)
    (h : hidesAtomic following = false) : atomicLength (significant following)
      = (significant (following.take (atomicLength following))).length := by
  cases hlength : atomicLength following with
  | zero =>
    have hview := (atomicLength_pos_iff following).not.mp (by omega)
    have hnone := (atomicLength_significant_pos_iff following).not.mpr fun hstarts => by
      rw [hidesAtomic, hstarts, (Bool.not_eq_true _).mp hview] at h
      exact absurd h (by decide)
    exact Nat.eq_zero_of_not_pos hnone
  | succ n =>
    obtain ⟨middle, atomic, rest, rfl, hn, hatomic, hmiddle⟩ := exists_of_atomicLength hlength
    have hword : atomic.isComment = false := Token.not_isComment_of_isBareWord
      ((hread atomic (by simp)).isBareWord_of_spells (by decide) hatomic)
    rw [take_words hn, Token.significant_append, Token.significant_append,
      Token.significant_cons hword, Token.significant_cons hword]
    rcases hmiddle with hnil | ⟨u, hu, hnot⟩
    · rw [hnil]
      exact (atomicLength_cons hword _).1 hatomic
    · have hucomment : u.isComment = false := by
        have hmem : u ∈ significant middle := by rw [hu]; simp
        simpa using (List.mem_filter.mp hmem).2
      rw [hu, List.singleton_append, atomicLength_cons_cons hucomment hword
        (Token.spells_eq_false hnot _ (by decide)), hnot, hatomic]
      rfl

/-! ### Reading without comments -/

/-- Whether a word opens a body depends on the tokens that are no comments. -/
theorem opensBody_significant (ts : List Token) (t : Token) :
    opensBody (significant ts) t = opensBody ts t := by
  have hgoverned : governed (significant ts) = governed ts :=
    congrArg (fun us => (splitLabel us).2) (Token.significant_significant ts)
  unfold opensBody governingVerb? governing?
  rw [hgoverned]

namespace Splitter

/-- What was read so far, without comments, in front of the tokens that follow. -/
def uncommented (s : Splitter) (following : List Token) : Splitter where
  current := significant s.current
  parens := s.parens
  cases := s.cases
  awaited := s.awaited.map fun count => (significant (following.take count)).length

/-- Whether the token is a `BEGIN` that opens a body, as it stands neither between parentheses nor
    in a `CASE` expression. -/
def opensCompoundAt (s : Splitter) (t : Token) : Bool :=
  s.parens == 0 && s.cases == 0 && t.spells "BEGIN"

/-- Whether an `ATOMIC` is hidden behind a `BEGIN` that opens a body, in the statement that is being
    read or in those that come next. -/
def hidesAtomic (s : Splitter) : List Token → Bool
  | [] => false
  | t :: rest =>
    (s.opensCompoundAt t && Token.hidesAtomic rest) || (s.step t rest).2.hidesAtomic rest

variable {s : Splitter} {t : Token} {rest : List Token}

/-- What is left at the end is the last statement without its comments, if there is anything left of
    it. -/
theorem finish_uncommented (s : Splitter) (following : List Token) :
    (s.uncommented following).finish = s.finish.filterMap Statement.uncommented? := by
  by_cases hnil : s.current = []
  · simp [finish, uncommented, hnil, significant]
  · have hsignificant : (⟨s.current, hnil⟩ : Statement).significant = significant s.current := rfl
    by_cases hcomments : significant s.current = []
    · simp [finish, uncommented, hnil, hcomments, Statement.uncommented?, hsignificant]
    · simp [finish, uncommented, hnil, hcomments, Statement.uncommented?, hsignificant]

/-- A word means the same for the end of the statement without comments. -/
theorem readWord_uncommented (hnone : s.awaited = none) (hparens : s.parens = 0)
    (hrest : s.opensCompoundAt t = true → atomicLength (significant rest)
      = (significant (rest.take (atomicLength rest))).length) :
    (s.uncommented rest).readWord t (significant rest) = (s.readWord t rest).uncommented rest := by
  obtain ⟨current, parens, cases, awaited⟩ := s
  obtain rfl : awaited = none := hnone
  obtain rfl : parens = 0 := hparens
  rw [show uncommented ⟨current, 0, cases, none⟩ rest
    = ⟨significant current, 0, cases, none⟩ from rfl]
  unfold readWord
  dsimp only
  split
  · rfl
  split
  · rfl
  split
  · rfl
  rename_i hcases
  split
  · -- Only a `BEGIN` looks at the tokens behind it.
    rename_i hbegin
    have hopens : opensCompoundAt ⟨current, 0, cases, none⟩ t = true := by
      simp [opensCompoundAt, hbegin, Nat.eq_zero_of_not_pos hcases]
    rw [hrest hopens]
    rfl
  rw [opensBody_significant]
  split
  · rfl
  · rfl

/-- A statement that waits for tokens goes on with the one that comes next, unless that is a
    comment. -/
theorem Awaits.add_awaiting {count : Nat} (h : s.Awaits count (t :: rest)) (hread : t.IsRead)
    (ht : t.isComment = false) (cur : List Token) (left : Nat) (following : List Token) :
    (awaiting cur left).add t following = awaiting (cur ++ [t]) (left - 1) := by
  rcases h.head.resolve_left (by rw [ht]; decide) with hnot | hatomic
  · exact Splitter.add_awaiting hread hnot (by decide) (by decide) following
  · exact Splitter.add_awaiting hread hatomic (by decide) (by decide) following

/-- The last token that is waited for is no comment, so that some are waited for without comments
    too. -/
theorem awaited_uncommented {following : List Token} (hread : ∀ u ∈ following, u.IsRead)
    (h : s.awaited ≠ some 0 → s.Sound following) :
    (s.uncommented following).awaited = some 0 ↔ s.awaited = some 0 := by
  unfold uncommented
  cases hs : s.awaited with
  | none => simp
  | some count =>
    by_cases hzero : count = 0
    · simp [hzero, significant]
    · obtain ⟨middle, atomic, behind, rfl, hcount, hatomic, -⟩ :=
        ((h (by simpa [hs] using hzero)).awaits count hs).words
      have hword := (hread atomic (by simp)).isBareWord_of_spells (by decide) hatomic
      rw [Option.map_some, ← hcount, take_words rfl, Token.significant_append,
        Token.significant_cons (Token.not_isComment_of_isBareWord hword)]
      simp

/-- One more token that is no comment is read alike without comments, where nothing is hidden behind
    it. -/
theorem Sound.add_uncommented (h : s.Sound (t :: rest)) (hread : t.IsRead)
    (ht : t.isComment = false)
    (hrest : s.opensCompoundAt t = true → atomicLength (significant rest)
      = (significant (rest.take (atomicLength rest))).length) :
    (s.uncommented (t :: rest)).add t (significant rest) = (s.add t rest).uncommented rest := by
  have hcurrent : significant (s.current ++ [t]) = significant s.current ++ [t] := by
    rw [Token.significant_append, Token.significant_cons ht]
    rfl
  cases hs : s.awaited with
  | some count =>
    -- The token is one of those that are waited for, with or without comments.
    have hawaits := h.awaits count hs
    obtain ⟨n, rfl⟩ : ∃ n, count = n + 1 := by
      obtain ⟨middle, -, -, -, hcount, -⟩ := hawaits.words
      exact ⟨middle.length, hcount.symm⟩
    have hstate : s.uncommented (t :: rest)
        = awaiting (significant s.current) ((significant (rest.take n)).length + 1) := by
      rw [hawaits.eq_awaiting hs]
      simp only [uncommented, awaiting, Option.map_some, List.take_succ_cons,
        Token.significant_cons ht, List.length_cons]
    rw [(hawaits.add hs hread).1, hstate, hawaits.add_awaiting hread ht]
    simp only [uncommented, awaiting, Option.map_some, hcurrent, Nat.add_sub_cancel]
  | none =>
    have hnone : (s.uncommented (t :: rest)).awaited = none := by rw [uncommented, hs]; rfl
    by_cases hlevel : t.IsLevel
    · rw [add_of_isLevel hlevel _ hs, add_of_isLevel hlevel _ hnone]
      by_cases hword : s.parens = 0 ∧ t.kind.isBareWord = true
      · have hafter := readWord_uncommented (s := { s with current := s.current ++ [t] }) hs hword.1
          hrest
        rw [if_pos hword, if_pos (show (s.uncommented (t :: rest)).parens = 0 ∧ _ from hword),
          ← hafter]
        simp only [uncommented, hcurrent, hs, Option.map_none]
      · rw [if_neg hword, if_neg (show ¬((s.uncommented (t :: rest)).parens = 0 ∧ _) from hword)]
        simp only [uncommented, hcurrent, hs, Option.map_none]
    · -- A parenthesis changes nothing but how many are open.
      have hk : t.kind = .openParen ∨ t.kind = .closeParen := by
        rw [Token.IsLevel] at hlevel
        tauto
      unfold Splitter.add
      rcases hk with hk | hk <;> simp only [hk, uncommented, hcurrent, hs, Option.map_none]

/-- What one token ends, and what was read behind it, without comments. -/
theorem Sound.step_uncommented (h : s.Sound (t :: rest)) (hread : ∀ u ∈ t :: rest, u.IsRead)
    (ht : t.isComment = false)
    (hrest : s.opensCompoundAt t = true → Token.hidesAtomic rest = false) :
    (s.uncommented (t :: rest)).step t (significant rest)
      = ((s.step t rest).1.filterMap fun p => p.1.uncommented?.map fun q => (q, p.2),
        (s.step t rest).2.uncommented rest) := by
  have hfinish : ∀ (z : Splitter) (following : List Token) (e : Terminator),
      (z.uncommented following).finish.map (fun q => (q, e))
        = (z.finish.map fun q => (q, e)).filterMap
          fun p => p.1.uncommented?.map fun q => (q, p.2) := fun z following e => by
    rw [finish_uncommented, List.map_filterMap, List.filterMap_map]
    rfl
  have hends : (s.uncommented (t :: rest)).endsAt t = s.endsAt t := rfl
  unfold Splitter.step
  rw [hends]
  by_cases hend : s.endsAt t = true
  · rw [if_pos hend, if_pos hend, hfinish]
    rfl
  · have hadd := h.add_uncommented (hread t (by simp)) ht fun hopens =>
      atomicLength_significant (fun u hu => hread u (by simp [hu])) (hrest hopens)
    have hrest : ∀ u ∈ rest, u.IsRead := fun u hu => hread u (by simp [hu])
    obtain ⟨-, hgoes⟩ := h.add (hread t (by simp)) (Bool.not_eq_true _ ▸ hend)
    rw [if_neg hend, if_neg hend, hadd]
    simp only [awaited_uncommented hrest hgoes]
    split
    · rw [hfinish]
      rfl
    · rfl

/-- A comment ends nothing, and is not missed. -/
theorem Sound.step_comment (h : s.Sound (t :: rest)) (hread : t.IsRead) (ht : t.isComment = true) :
    ∃ next, s.step t rest = ([], next) ∧ next.uncommented rest = s.uncommented (t :: rest) := by
  have hk : t.kind = .comment := by simpa [Token.isComment] using ht
  have hend : ¬s.endsAt t = true := by simp [endsAt, hk]
  have hadd := add_comment s ht rest
  have hcurrent : significant (s.current ++ [t]) = significant s.current := by
    rw [Token.significant_append, Token.significant_comment_cons ht]
    exact List.append_nil _
  refine ⟨s.add t rest, ?_, ?_⟩
  · rw [Splitter.step, if_neg hend]
    refine if_neg fun hzero => ?_
    rw [hadd] at hzero
    obtain ⟨count, hs, hcount⟩ := Option.map_eq_some_iff.mp hzero
    -- The last token that is waited for is a word.
    obtain ⟨middle, atomic, behind, hsplit, hlength, hatomic, -⟩ := (h.awaits count hs).words
    obtain rfl : middle = [] := List.length_eq_zero_iff.mp (by omega)
    obtain ⟨rfl, -⟩ := List.cons.inj hsplit
    rw [hread.spells_eq_false_of_kind (by rw [hk]; rfl) (by decide)] at hatomic
    exact absurd hatomic (by decide)
  · rw [hadd]
    unfold uncommented
    cases hs : s.awaited with
    | none => simp only [hcurrent, Option.map_none]
    | some count =>
      obtain ⟨middle, -, -, -, hlength, -⟩ := (h.awaits count hs).words
      obtain ⟨n, rfl⟩ : ∃ n, count = n + 1 := ⟨middle.length, hlength.symm⟩
      simp only [hcurrent, Option.map_some, Nat.add_sub_cancel, List.take_succ_cons,
        Token.significant_comment_cons ht]

/-! ### What is hidden -/

/-- What was read so far is the start of the statement that comes next. -/
theorem exists_split_eq_cons (hs : s.current ≠ []) (ts : List Token) :
    ∃ q ss, s.split ts = q :: ss ∧ s.current <+: q.tokens := by
  induction ts generalizing s with
  | nil => exact ⟨⟨s.current, hs⟩, [], by rw [split, finish, dif_neg hs], List.prefix_refl _⟩
  | cons t ts ih =>
    rw [split]
    split
    · exact ⟨⟨s.current, hs⟩, start.split ts, by rw [finish, dif_neg hs]; rfl, List.prefix_refl _⟩
    · have hprefix : s.current <+: (s.add t ts).current := ⟨[t], (current_add s t ts).symm⟩
      have hne : (s.add t ts).current ≠ [] := by simp [current_add]
      simp only
      split
      · exact ⟨⟨_, hne⟩, _, by rw [finish, dif_neg hne]; rfl, hprefix⟩
      · obtain ⟨q, ss, hsplit, hq⟩ := ih hne
        exact ⟨q, ss, hsplit, hprefix.trans hq⟩

/-- A `BEGIN` and the words behind it are part of the same statement without comments. -/
theorem split_begin_words (cur : List Token) {t u : Token} (ht : t.IsRead) (hu : u.IsRead)
    (hbegin : t.spells "BEGIN" = true) (hword : u.spells "ATOMIC" = true ∨ u.spells "NOT" = true)
    {us : List Token} (hlength : 0 < atomicLength (u :: us)) :
    ∃ q ss, (reading cur).split (t :: u :: us) = q :: ss ∧ cur ++ [t] ++ [u] <+: q.tokens := by
  obtain ⟨k, hk⟩ := Nat.exists_eq_add_one.mpr hlength
  have hadd : (awaiting (cur ++ [t]) (k + 1)).add u us = awaiting (cur ++ [t] ++ [u]) k := by
    rcases hword with hatomic | hnot
    · exact add_awaiting hu hatomic (by decide) (by decide) us
    · exact add_awaiting hu hnot (by decide) (by decide) us
  have hbare : u.kind.isBareWord = true := by
    rcases hword with hatomic | hnot
    · exact hu.isBareWord_of_spells (by decide) hatomic
    · exact hu.isBareWord_of_spells (by decide) hnot
  rw [split_of_add_eq_awaiting_succ (ht.isBareWord_of_spells (by decide) hbegin)
    (hk ▸ add_begin cur ht hbegin (u :: us))]
  cases k with
  | zero =>
    exact ⟨⟨cur ++ [t] ++ [u], by simp⟩, start.split us, split_of_add_eq_awaiting hbare hadd,
      List.prefix_refl _⟩
  | succ k =>
    rw [split_of_add_eq_awaiting_succ hbare hadd]
    exact exists_split_eq_cons (s := awaiting (cur ++ [t] ++ [u]) (k + 1))
      (show cur ++ [t] ++ [u] ≠ [] by simp) us

/-- Nothing is waited for where `BEGIN` comes next. -/
theorem Sound.awaited_eq_none_of_begin (h : s.Sound (t :: rest)) (hread : t.IsRead)
    (hbegin : t.spells "BEGIN" = true) : s.awaited = none := by
  have hcomment : t.isComment = false :=
    Token.not_isComment_of_isBareWord (hread.isBareWord_of_spells (by decide) hbegin)
  cases hs : s.awaited with
  | none => rfl
  | some count =>
    have hhead := (h.awaits count hs).head
    rw [hcomment, Token.spells_eq_false hbegin "NOT" (by decide),
      Token.spells_eq_false hbegin "ATOMIC" (by decide)] at hhead
    exact absurd hhead (by decide)

/-- A statement that is being read, with nothing open and nothing that is waited for. -/
theorem eq_reading (hparens : s.parens = 0) (hcases : s.cases = 0) (hnone : s.awaited = none) :
    s = reading s.current := by
  obtain ⟨current, parens, cases, awaited⟩ := s
  obtain rfl : parens = 0 := hparens
  obtain rfl : cases = 0 := hcases
  obtain rfl : awaited = none := hnone
  rfl

/-- Where an `ATOMIC` is hidden, the statement ends in front of it, but not without comments. -/
theorem Sound.split_ne_of_hidesAtomic (h : s.Sound (t :: rest)) (hread : ∀ u ∈ t :: rest, u.IsRead)
    (hopens : s.opensCompoundAt t = true) (hhides : Token.hidesAtomic rest = true) :
    (s.uncommented (t :: rest)).split (significant (t :: rest))
      ≠ (s.split (t :: rest)).filterMap Statement.uncommented? := by
  simp only [opensCompoundAt, Bool.and_eq_true, beq_iff_eq] at hopens
  obtain ⟨⟨hparens, hcases⟩, hbegin⟩ := hopens
  rw [Token.hidesAtomic, Bool.and_eq_true, Bool.not_eq_true'] at hhides
  obtain ⟨hstarts, hview⟩ := hhides
  have ht : t.IsRead := hread t (by simp)
  have hword := ht.isBareWord_of_spells (by decide) hbegin
  have hcomment := Token.not_isComment_of_isBareWord hword
  have hnone := h.awaited_eq_none_of_begin ht hbegin
  -- With the comments, the statement ends with `BEGIN`.
  have hlength : atomicLength rest = 0 :=
    Nat.eq_zero_of_not_pos ((atomicLength_pos_iff rest).not.mpr (by simp [hview]))
  have hends : s.split (t :: rest) = ⟨s.current ++ [t], by simp⟩ :: start.split rest := by
    refine split_of_add_eq_awaiting hword ?_
    rw [eq_reading hparens hcases hnone, add_begin s.current ht hbegin rest, hlength]
    rfl
  obtain ⟨r, hr, hrtokens⟩ :=
    Statement.uncommented?_of_concat (s := ⟨s.current ++ [t], by simp⟩) hcomment rfl
  -- Without them, one more word at least is read.
  obtain ⟨u, us, hus, hnext⟩ := Token.exists_of_startsWithAtomic hstarts
  have hu : u.IsRead := by
    have hmem : u ∈ significant rest := by rw [hus]; simp
    exact hread u (List.mem_cons_of_mem _ (List.mem_filter.mp hmem).1)
  have hpos : 0 < atomicLength (u :: us) := by
    rw [← hus]
    exact (atomicLength_significant_pos_iff rest).mpr hstarts
  have hreading : s.uncommented (t :: rest) = reading (significant s.current) := by
    rw [uncommented, hparens, hcases, hnone]
    rfl
  obtain ⟨q, ss, hsplit, hprefix⟩ :=
    split_begin_words (significant s.current) ht hu hbegin hnext hpos
  intro heq
  rw [Token.significant_cons hcomment, hus, hreading, hsplit, hends,
    List.filterMap_cons_some hr, List.cons.injEq] at heq
  have hle := hprefix.length_le
  rw [heq.1, hrtokens] at hle
  simp at hle

/-! ### Sequences -/

/-- Without comments, the same statements come next exactly when none of their bodies has a hidden
    `ATOMIC`. -/
theorem Sound.split_uncommented_iff {ts : List Token} (h : s.Sound ts)
    (hread : ∀ u ∈ ts, u.IsRead) : (s.uncommented ts).split (significant ts)
      = (s.split ts).filterMap Statement.uncommented? ↔ s.hidesAtomic ts = false := by
  induction ts generalizing s with
  | nil =>
    refine iff_of_true ?_ rfl
    show (s.uncommented []).split [] = s.finish.filterMap _
    rw [split, finish_uncommented]
  | cons t rest ih =>
    have hnext := ih (h.step (hread t (by simp))) fun u hu => hread u (by simp [hu])
    rw [hidesAtomic]
    by_cases hcomment : t.isComment = true
    · have hk : t.kind.isBareWord = false := by
        rw [show t.kind = .comment by simpa [Token.isComment] using hcomment]
        rfl
      obtain ⟨next, hstep, huncommented⟩ := h.step_comment (hread t (by simp)) hcomment
      rw [Token.significant_comment_cons hcomment, ← huncommented, split_cons, hstep,
        opensCompoundAt, (hread t (by simp)).spells_eq_false_of_kind hk (by decide), Bool.and_false,
        Bool.false_and, Bool.false_or]
      rwa [hstep] at hnext
    rw [Bool.not_eq_true] at hcomment
    -- From a hidden `ATOMIC` on the statements differ. Without one both are in the same state.
    by_cases hhides : s.opensCompoundAt t = true ∧ Token.hidesAtomic rest = true
    · refine iff_of_false (h.split_ne_of_hidesAtomic hread hhides.1 hhides.2) ?_
      rw [hhides.1, hhides.2, Bool.and_self, Bool.true_or]
      decide
    · have hrest : s.opensCompoundAt t = true → Token.hidesAtomic rest = false := fun hopens =>
        (Bool.not_eq_true _).mp fun hhidden => hhides ⟨hopens, hhidden⟩
      have hnone : (s.opensCompoundAt t && Token.hidesAtomic rest) = false := by
        rw [← Bool.not_eq_true, Bool.and_eq_true]
        exact hhides
      have hended : ∀ ps : List (Statement × Terminator),
          (ps.filterMap fun p => p.1.uncommented?.map fun q => (q, p.2)).map Prod.fst
            = (ps.map Prod.fst).filterMap Statement.uncommented? := fun ps => by
        rw [List.map_filterMap, List.filterMap_map]
        refine congrArg (List.filterMap · ps) (funext fun p => ?_)
        show (p.1.uncommented?.map _).map Prod.fst = p.1.uncommented?
        cases p.1.uncommented? <;> rfl
      rw [Token.significant_cons hcomment, split_cons, split_cons,
        h.step_uncommented hread hcomment hrest, List.filterMap_append, hended,
        List.append_cancel_left_eq, hnone, Bool.false_or]
      exact hnext

/-- Nothing is hidden where nothing is hidden behind any `BEGIN`. -/
theorem hidesAtomic_eq_false {ts : List Token} (h : ∀ before t following,
    ts = before ++ t :: following → t.spells "BEGIN" = true →
      Token.hidesAtomic following = false) : s.hidesAtomic ts = false := by
  induction ts generalizing s with
  | nil => rfl
  | cons t rest ih =>
    have hrest : (s.step t rest).2.hidesAtomic rest = false :=
      ih fun before u following hsplit => h (t :: before) u following (by rw [hsplit]; rfl)
    rw [hidesAtomic, hrest, Bool.or_false, Bool.and_eq_false_imp]
    intro hopens
    exact h [] t rest rfl (Bool.and_eq_true_iff.mp hopens).2

end Splitter

namespace Script

/-- Without its comments, a script has the statements of the script, each without its comments and
    none where there is nothing else, exactly when no `ATOMIC` is hidden behind a `BEGIN` that opens
    a body. That takes three comments at least among the four tokens behind it. The statements are
    the same in all that is asked about them, whatever is hidden. -/
theorem uncommented_iff (t : Text) :
    (Statement.ofTokens (significant (Token.scan t))
        = (ofText t).statements.filterMap Statement.uncommented? ↔
      Splitter.start.hidesAtomic (Token.scan t) = false) ∧
    ((∀ before b following, Token.scan t = before ++ b :: following → b.spells "BEGIN" = true →
        (following.take 4).countP Token.isComment ≤ 2) →
      Splitter.start.hidesAtomic (Token.scan t) = false) ∧
    ∀ s ∈ (ofText t).statements, ∀ q ∈ s.uncommented?,
      q.AnswersAlike s ∧ q.label? = s.label? ∧ q.newSchema? = s.newSchema? := by
  refine ⟨?_, fun h => ?_, fun s _ q hq => Statement.answersAlike_uncommented hq⟩
  · exact (Splitter.sound_start (Token.scan t)).split_uncommented_iff
      fun u hu => Token.isRead_of_mem_scan hu
  · exact Splitter.hidesAtomic_eq_false fun before b following hsplit hbegin =>
      Token.hidesAtomic_eq_false (h before b following hsplit hbegin)

/-- Four comments hide an `ATOMIC`, so that it is read as the start of the next statement. Without
    them it is the end of the one that `BEGIN` starts. -/
theorem uncommented_of_hidesAtomic :
    (ofText "BEGIN /*1*/ /*2*/ /*3*/ /*4*/ ATOMIC SELECT 1; END".toList).statements.filterMap
        Statement.uncommented?
      ≠ Statement.ofTokens (significant
          (Token.scan "BEGIN /*1*/ /*2*/ /*3*/ /*4*/ ATOMIC SELECT 1; END".toList)) ∧
    (ofText "BEGIN /*1*/ /*2*/ /*3*/ /*4*/ ATOMIC SELECT 1; END".toList).statements.map
        Statement.verb?
      = [some .BEGIN, none, some .END] ∧
    (Statement.ofTokens (significant
        (Token.scan "BEGIN /*1*/ /*2*/ /*3*/ /*4*/ ATOMIC SELECT 1; END".toList))).map
        Statement.verb?
      = [some .BEGIN, some .SELECT, some .END] := by
  have hverbs : (ofText "BEGIN /*1*/ /*2*/ /*3*/ /*4*/ ATOMIC SELECT 1; END".toList).statements.map
      Statement.verb? = [some .BEGIN, none, some .END] := by decide +kernel
  refine ⟨fun heq => ?_, hverbs, by decide +kernel⟩
  have hsecond := congrArg (fun ss => ss.map (·.tokens.length)) heq
  exact absurd hsecond (by decide +kernel)

end Script

end SqlScript
