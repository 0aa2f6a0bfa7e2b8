import SqlScript.Proofs.Script.Depth
import SqlScript.Proofs.Script.Step

namespace SqlScript

/-!
# Where statements end

A statement ends at a semicolon, with the word that opens a body, or with the script. Whether a
word opens a body is decided while the statement is read, from the tokens so far and those that come
next; what is told of the statement afterwards agrees with that.

* `Statement.isSome_opener?_of_opensBody` — a word that is found to open a body while it is read,
  and with which the statement ends, opens one;
* `Splitter.Sound` — what a statement that is being read, and the tokens that come next, are known
  to be; `Splitter.Sound.add` says what one more token makes of it, and
  `Splitter.StepsTo` are the forms that a step has;
* `Statement.Cuts` — how a sequence of tokens is cut into statements;
* `Statement.cuts_ofTokens` — the statements that are read cut the sequence like this.
-/

/-! ### The last word of a statement -/

namespace Statement

/-- A statement that ends in `BEGIN` opens a body. -/
theorem opener?_of_begin {s : Statement} {before : List Token} {t : Token}
    (hs : s.tokens = before ++ [t]) (ht : t.isComment = false) (hbegin : t.spells "BEGIN" = true) :
    s.opener? = some .BEGIN := by
  rw [opener?_of_last hs ht, openerAt?_begin hbegin]

/-- A statement that ends in `ATOMIC` behind `BEGIN` opens a body. -/
theorem opener?_of_atomic {s : Statement} {before : List Token} {t : Token}
    (hs : s.tokens = before ++ [t]) (ht : t.isComment = false) (hatomic : t.spells "ATOMIC" = true)
    (hbefore : endsInBegin ((Token.significant before).map Token.key).reverse = true) :
    s.opener? = some .BEGIN := by
  rw [opener?_of_last hs ht, openerAt?_atomic hatomic hbefore]

/-- A single governed token is the last one. -/
theorem governed_eq_singleton {before : List Token} {t : Token} (ht : t.isComment = false)
    (h : (governed (before ++ [t])).length = 1) : governed (before ++ [t]) = [t] := by
  obtain ⟨u, hu⟩ := List.length_eq_one_iff.mp h
  obtain ⟨front, hfront⟩ := splitLabel_suffix (Token.significant (before ++ [t]))
  have hlast : front ++ [u] = Token.significant before ++ [t] := by
    rw [← hu, governed, hfront, Token.significant, List.filter_append,
      List.filter_cons_of_pos (by simp [ht])]
    rfl
  rw [hu, (List.append_inj' hlast rfl).2]

/-- A statement whose last word opens a conditional body opens it afterwards too. -/
theorem isSome_opener?_of_opensBody {s : Statement} {before : List Token} {t : Token}
    (hs : s.tokens = before ++ [t]) (ht : t.isComment = false)
    (hopens : opensBody (before ++ [t]) t = true) : s.opener?.isSome = true := by
  have hverb : ∀ verbs : List Verb,
      ((governingVerb? (before ++ [t])).any fun v => verbs.contains v) = s.hasVerb verbs :=
    fun verbs => by rw [hasVerb, verb?, hs]
  rw [opener?_of_last hs ht]
  simp only [opensBody, hverb, Bool.or_eq_true] at hopens
  rcases hopens with (hthen | hdo) | halone
  · obtain ⟨hword, hhas⟩ := Bool.and_eq_true_iff.mp hthen
    rw [openerAt?_then hword hhas, Option.isSome_some]
  · obtain ⟨hword, hhas⟩ := Bool.and_eq_true_iff.mp hdo
    rw [openerAt?_do hword hhas, Option.isSome_some]
  · obtain ⟨hkey, hlength⟩ := Bool.and_eq_true_iff.mp halone
    have hgoverned := governed_eq_singleton ht (beq_iff_eq.mp hlength)
    rw [← hs] at hgoverned
    have hoperands : s.operands = [] := by rw [operands, hgoverned]; rfl
    have hverb? : s.verb? = Verb.ofKey? t.key := by
      rw [verb?, governingVerb?, governing?, hgoverned]
      rfl
    obtain ⟨w, hw, hspells⟩ := List.any_eq_true.mp hkey
    replace hspells : t.spells w = true := by rwa [Token.spells, Bool.beq_comm]
    have hall : ∀ w ∈ ["ELSE", "LOOP", "REPEAT"], w ∉ ["ATOMIC", "BEGIN", "THEN", "DO"] := by decide
    rw [openerAt?_of_spells hspells (hall w hw), hoperands, hverb?, Token.key_of_spells hspells]
    simp only [List.mem_cons, List.not_mem_nil, or_false] at hw
    rcases hw with rfl | rfl | rfl <;> rfl

end Statement

/-! ### The words behind `BEGIN` -/

/-- The first token that is no comment, with the number of tokens in front of it. -/
theorem exists_of_filter_zipIdx {ts : List Token} {k n : Nat} {t : Token}
    {more : List (Token × Nat)}
    (h : (ts.zipIdx k).filter (fun p => !p.1.isComment) = (t, n) :: more) :
    ∃ before after, ts = before ++ t :: after ∧ n = k + before.length ∧ t.isComment = false ∧
      Token.significant before = [] ∧
      (after.zipIdx (n + 1)).filter (fun p => !p.1.isComment) = more := by
  induction ts generalizing k with
  | nil => simp at h
  | cons u ts ih =>
    rw [List.zipIdx_cons] at h
    cases hu : u.isComment with
    | false =>
      rw [List.filter_cons_of_pos (by simp [hu]), List.cons.injEq, Prod.mk.injEq] at h
      obtain ⟨⟨rfl, rfl⟩, hmore⟩ := h
      exact ⟨[], ts, rfl, rfl, hu, rfl, hmore⟩
    | true =>
      rw [List.filter_cons_of_neg (by simp [hu])] at h
      obtain ⟨before, after, rfl, hn, ht, hbefore, hmore⟩ := ih h
      refine ⟨u :: before, after, rfl, ?_, ht, ?_, hmore⟩
      · rw [hn, List.length_cons]
        omega
      · rw [Token.significant, List.filter_cons_of_neg (by simp [hu])]
        exact hbefore

/-- Whether there is nothing but comments among the tokens, and at most one `NOT`. -/
def Token.IsAtMostNot (ts : List Token) : Prop :=
  Token.significant ts = [] ∨ ∃ t, Token.significant ts = [t] ∧ t.spells "NOT" = true

/-- What is waited for behind `BEGIN` ends in `ATOMIC`, with nothing but comments and a `NOT` in
    front of it. -/
theorem exists_of_atomicLength {following : List Token} {n : Nat}
    (h : atomicLength following = n + 1) :
    ∃ middle atomic rest, following = middle ++ atomic :: rest ∧ middle.length = n ∧
      atomic.spells "ATOMIC" = true ∧ Token.IsAtMostNot middle := by
  have htake : following = following.take 4 ++ following.drop 4 := (List.take_append_drop ..).symm
  unfold atomicLength at h
  split at h
  · exact absurd h (by omega)
  · rename_i t m hfilter
    obtain ⟨before, after, hsplit, rfl, -, hbefore, -⟩ := exists_of_filter_zipIdx hfilter
    split at h
    · rename_i hatomic
      refine ⟨before, t, after ++ following.drop 4, ?_, by omega, hatomic, .inl hbefore⟩
      conv_lhs => rw [htake, hsplit]
      simp
    · exact absurd h (by omega)
  · rename_i t m u k more hfilter
    obtain ⟨before, after, hsplit, rfl, ht, hbefore, hmore⟩ := exists_of_filter_zipIdx hfilter
    obtain ⟨between, behind, rfl, rfl, -, hbetween, -⟩ := exists_of_filter_zipIdx hmore
    split at h
    · rename_i hatomic
      refine ⟨before, t, between ++ u :: behind ++ following.drop 4, ?_, by omega, hatomic,
        .inl hbefore⟩
      conv_lhs => rw [htake, hsplit]
      simp
    · split at h
      · rename_i hwords
        -- The second word counts behind a `NOT` only, with the comments between them.
        rw [Bool.and_eq_true] at hwords
        refine ⟨before ++ t :: between, u, behind ++ following.drop 4, ?_, ?_, hwords.2, ?_⟩
        · conv_lhs => rw [htake, hsplit]
          simp
        · simp only [List.length_append, List.length_cons]
          omega
        · refine .inr ⟨t, ?_, hwords.1⟩
          rw [Token.significant, List.filter_append, List.filter_cons_of_pos (by simp [ht])]
          show Token.significant before ++ t :: Token.significant between = [t]
          rw [hbefore, hbetween]
          rfl
      · exact absurd h (by omega)

/-! ### A statement that is being read -/

/-- What is in front of `ATOMIC` is a comment or a `NOT`. -/
theorem isComment_or_spells_not {middle : List Token} (h : Token.IsAtMostNot middle) {u : Token}
    (hu : u ∈ middle) : u.isComment = true ∨ u.spells "NOT" = true := by
  by_cases hcomment : u.isComment = true
  · exact .inl hcomment
  · have hmem : u ∈ Token.significant middle := List.mem_filter.mpr ⟨hu, by simpa using hcomment⟩
    rcases h with h | ⟨t, h, hnot⟩
    · rw [h] at hmem
      exact absurd hmem (by simp)
    · rw [h, List.mem_singleton] at hmem
      exact .inr (hmem ▸ hnot)

/-- `BEGIN` stands in front of `ATOMIC`, or of the `NOT` in front of it. -/
theorem endsInBegin_append {before middle : List Token} {t : Token} (ht : t.isComment = false)
    (hbegin : t.spells "BEGIN" = true) (h : Token.IsAtMostNot middle) :
    Statement.endsInBegin
      ((Token.significant (before ++ [t] ++ middle)).map Token.key).reverse = true := by
  have hsplit : Token.significant (before ++ [t] ++ middle)
      = Token.significant before ++ t :: Token.significant middle := by
    simp [Token.significant, ht]
  rw [hsplit]
  rcases h with h | ⟨u, h, hnot⟩
  · simp [h, Token.key_of_spells hbegin, Statement.endsInBegin]
  · simp [h, Token.key_of_spells hbegin, Token.key_of_spells hnot, Statement.endsInBegin]

namespace Splitter

/-- The tokens that a statement waits for, when some are left of it: a word that ends in `ATOMIC`
    the opening of a body, behind comments and a `NOT`. -/
structure Awaits (s : Splitter) (count : Nat) (following : List Token) : Prop where
  parens : s.parens = 0
  cases : s.cases = 0
  words : ∃ middle atomic rest, following = middle ++ atomic :: rest ∧ middle.length + 1 = count ∧
    atomic.spells "ATOMIC" = true ∧
    (∀ t ∈ middle, t.isComment = true ∨ t.spells "NOT" = true) ∧
    Statement.endsInBegin ((Token.significant (s.current ++ middle)).map Token.key).reverse = true

/-- What is known of a statement that is being read, and of the tokens that come next. -/
structure Sound (s : Splitter) (following : List Token) : Prop where
  parens : s.parens = depthAfterAll Token.kind 0 s.current
  unended : unended Token.kind 0 s.current = s.current
  awaits : ∀ count ∈ s.awaited, s.Awaits count following

/-- At the start nothing was read. -/
theorem sound_start (following : List Token) : start.Sound following :=
  ⟨rfl, rfl, by simp [start]⟩

/-- What comes next where tokens are waited for. -/
theorem Awaits.head {s : Splitter} {count : Nat} {t : Token} {rest : List Token}
    (h : s.Awaits count (t :: rest)) :
    t.isComment = true ∨ t.spells "NOT" = true ∨ t.spells "ATOMIC" = true := by
  obtain ⟨middle, atomic, behind, hsplit, -, hatomic, hmiddle, -⟩ := h.words
  cases middle with
  | nil =>
    obtain ⟨rfl, -⟩ := List.cons.inj hsplit
    exact .inr (.inr hatomic)
  | cons u middle =>
    obtain ⟨rfl, -⟩ := List.cons.inj hsplit
    exact (hmiddle t (by simp)).imp_right .inl

/-- What waits for tokens has no parentheses or expressions open. -/
theorem Awaits.eq_awaiting {s : Splitter} {count : Nat} {following : List Token}
    (h : s.Awaits count following) (hs : s.awaited = some count) :
    s = awaiting s.current count := by
  obtain ⟨current, parens, cases, awaited⟩ := s
  obtain rfl : parens = 0 := h.parens
  obtain rfl : cases = 0 := h.cases
  obtain rfl : awaited = some count := hs
  rfl

/-- A comment changes nothing but the number of tokens that are waited for. -/
theorem add_comment (s : Splitter) {t : Token} (ht : t.isComment = true) (following : List Token) :
    s.add t following
      = { s with current := s.current ++ [t], awaited := s.awaited.map (· - 1) } := by
  have hk : t.kind = .comment := by simpa [Token.isComment] using ht
  unfold add
  simp [hk, Kind.isBareWord]

/-- A statement that waits for tokens opens a body with the last one of them. -/
theorem Awaits.add {s : Splitter} {count : Nat} {t : Token} {rest : List Token}
    (h : s.Awaits count (t :: rest)) (hs : s.awaited = some count) (hread : t.IsRead) :
    s.add t rest = awaiting (s.current ++ [t]) (count - 1) ∧
      (count = 1 ∧ t.isComment = false ∧ t.spells "ATOMIC" = true ∧
          Statement.endsInBegin ((Token.significant s.current).map Token.key).reverse = true ∨
        (s.add t rest).Awaits (count - 1) rest) := by
  obtain ⟨middle, atomic, behind, hfollowing, hcount, hatomic, hmiddle, hbegin⟩ := h.words
  have hstate := h.eq_awaiting hs
  -- The token is `ATOMIC` itself, or else a comment or the `NOT` in front of it.
  cases middle with
  | nil =>
    obtain ⟨rfl, rfl⟩ := List.cons.inj hfollowing
    have hadd : s.add t rest = awaiting (s.current ++ [t]) (count - 1) := by
      rw [hstate]
      exact add_awaiting hread hatomic (by decide) (by decide) rest
    refine ⟨hadd, .inl ⟨by simpa using hcount.symm, ?_, hatomic, by simpa using hbegin⟩⟩
    exact Token.not_isComment_of_isBareWord (hread.isBareWord_of_spells (by decide) hatomic)
  | cons u middle =>
    rw [List.cons_append, List.cons.injEq] at hfollowing
    obtain ⟨rfl, rfl⟩ := hfollowing
    have hadd : s.add t (middle ++ atomic :: behind) = awaiting (s.current ++ [t]) (count - 1) := by
      rw [hstate]
      rcases hmiddle t (by simp) with hcomment | hnot
      · exact add_comment _ hcomment _
      · exact add_awaiting hread hnot (by decide) (by decide) _
    refine ⟨hadd, .inr ?_⟩
    rw [hadd]
    refine ⟨rfl, rfl, middle, atomic, behind, rfl, ?_, hatomic,
      fun v hv => hmiddle v (by simp [hv]), ?_⟩
    · rw [List.length_cons] at hcount
      omega
    · rw [show (awaiting (s.current ++ [t]) (count - 1)).current = s.current ++ [t] from rfl,
        List.append_assoc, List.singleton_append]
      exact hbegin

/-- A word that ends a statement which waits for nothing opens a body. -/
theorem readWord_of_awaited_none {s : Splitter} {before : List Token} {t : Token}
    (following : List Token) (hs : s.awaited = none) (hcurrent : s.current = before ++ [t])
    (hparens : s.parens = 0) (ht : t.isComment = false) :
    (s.readWord t following).awaited = none ∨
      ((s.readWord t following).awaited = some 0 ∧
        ∀ q : Statement, q.tokens = s.current → q.opener?.isSome = true) ∨
      ∃ count, (s.readWord t following).awaited = some (count + 1) ∧
        (s.readWord t following).Awaits (count + 1) following := by
  unfold readWord
  -- Words of a `CASE` expression, and in one, leave what is waited for as it is.
  split
  · exact .inl hs
  split
  · exact .inl hs
  split
  · exact .inl hs
  rename_i hcases
  split
  · rename_i hbegin
    refine .inr ?_
    cases hlength : atomicLength following with
    | zero =>
      refine .inl ⟨rfl, fun q hq => ?_⟩
      rw [Statement.opener?_of_begin (hq.trans hcurrent) ht hbegin]
      rfl
    | succ count =>
      obtain ⟨middle, atomic, rest, rfl, hmiddle, hatomic, hwords⟩ := exists_of_atomicLength hlength
      refine .inr ⟨count, rfl, hparens, Nat.eq_zero_of_not_pos hcases, middle, atomic,
        rest, rfl, by omega, hatomic, ?_, ?_⟩
      · exact fun u hu => isComment_or_spells_not hwords hu
      · rw [hcurrent]
        exact endsInBegin_append ht hbegin hwords
  split
  · rename_i hopens
    rw [hcurrent] at hopens
    exact .inr (.inl ⟨rfl, fun q hq =>
      Statement.isSome_opener?_of_opensBody (hq.trans hcurrent) ht hopens⟩)
  · exact .inl hs

/-- Nothing is waited for behind what is no word outside of all parentheses. -/
theorem awaited_add_of_not_word {s : Splitter} {t : Token} (hs : s.awaited = none)
    (h : ¬(s.parens = 0 ∧ t.kind.isBareWord = true)) (following : List Token) :
    (s.add t following).awaited = none := by
  unfold Splitter.add
  split
  · simp [hs]
  · simp [hs]
  · simp only [if_neg h]
    simp [hs]

/-- What is read but a semicolon that ends the statement keeps what is known of it. -/
theorem Sound.current_add {s : Splitter} {t : Token} {rest : List Token}
    (h : s.Sound (t :: rest)) (hend : s.endsAt t = false) :
    (s.add t rest).parens = depthAfterAll Token.kind 0 (s.add t rest).current ∧
      SqlScript.unended Token.kind 0 (s.add t rest).current = (s.add t rest).current := by
  have hsemicolon : ¬(t.kind = .semicolon ∧ depthAfterAll Token.kind 0 s.current = 0) := fun hk => by
    rw [← h.parens, ← endsAt_iff, hend] at hk
    exact absurd hk (by decide)
  rw [Splitter.current_add, parens_add, depthAfterAll_append, unended_append, h.unended, h.parens]
  refine ⟨rfl, ?_⟩
  rw [SqlScript.unended, if_neg hsemicolon]
  rfl

/-- One more token of a statement: it opens a body and ends there, or it goes on. -/
theorem Sound.add {s : Splitter} {t : Token} {rest : List Token} (h : s.Sound (t :: rest))
    (hread : t.IsRead) (hend : s.endsAt t = false) :
    ((s.add t rest).awaited = some 0 → (s.add t rest).parens = 0 ∧
        ∀ q : Statement, q.tokens = (s.add t rest).current → q.opener?.isSome = true) ∧
      ((s.add t rest).awaited ≠ some 0 → (s.add t rest).Sound rest) := by
  obtain ⟨hparens, hunended⟩ := h.current_add hend
  -- It is enough to tell what the statement waits for after the token.
  have hsound : (∀ count ∈ (s.add t rest).awaited, (s.add t rest).Awaits count rest) →
      ((s.add t rest).awaited = some 0 → (s.add t rest).parens = 0 ∧
          ∀ q : Statement, q.tokens = (s.add t rest).current → q.opener?.isSome = true) ∧
        ((s.add t rest).awaited ≠ some 0 → (s.add t rest).Sound rest) := fun hawaits => by
    refine ⟨fun hzero => ?_, fun _ => ⟨hparens, hunended, hawaits⟩⟩
    obtain ⟨_, _, _, -, hcount, -⟩ := (hawaits 0 hzero).words
    exact absurd hcount (by omega)
  cases hs : s.awaited with
  | some count =>
    obtain ⟨hadd, hlast | hawaits⟩ := (h.awaits count hs).add hs hread
    · obtain ⟨rfl, ht, hatomic, hbegin⟩ := hlast
      refine ⟨fun _ => ⟨by rw [hadd]; rfl, fun q hq => ?_⟩,
        fun hne => absurd (by rw [hadd]; rfl) hne⟩
      rw [Splitter.current_add] at hq
      rw [Statement.opener?_of_atomic hq ht hatomic hbegin]
      rfl
    · refine hsound fun n hn => ?_
      rw [hadd] at hn
      obtain rfl : count - 1 = n := Option.some.inj hn
      exact hawaits
  | none =>
    by_cases hword : s.parens = 0 ∧ t.kind.isBareWord = true
    · have hadd := add_of_isLevel (Token.isLevel_of_isBareWord hword.2) rest hs
      rw [if_pos hword] at hadd
      have ht := Token.not_isComment_of_isBareWord hword.2
      rw [hadd] at hsound ⊢
      rcases readWord_of_awaited_none (s := { s with current := s.current ++ [t] }) rest
        hs rfl hword.1 ht with hnone | ⟨hzero, hopens⟩ | ⟨count, hcount, hawaits⟩
      · exact hsound fun n hn => absurd (hnone.symm.trans hn) (by simp)
      · refine ⟨fun _ => ⟨(parens_readWord ..).trans hword.1, fun q hq => ?_⟩,
          fun hne => absurd hzero hne⟩
        exact hopens q (hq.trans (current_readWord ..))
      · refine hsound fun n hn => ?_
        obtain rfl := Option.some.inj (hcount.symm.trans hn)
        exact hawaits
    · have hnone := awaited_add_of_not_word hs hword rest
      exact hsound fun n hn => absurd (hnone.symm.trans hn) (by simp)

end Splitter

/-! ### Steps -/

/-- Whether the tokens can make a statement: no semicolon among them is outside of all
    parentheses. -/
def Token.Unended (ts : List Token) : Prop := unended Token.kind 0 ts = ts

/-- Tokens that can make a statement start with no semicolon. -/
theorem Token.Unended.head {t : Token} {ts : List Token} (h : Unended (t :: ts)) :
    t.kind ≠ .semicolon := by
  intro hk
  rw [Unended, unended, if_pos ⟨hk, rfl⟩] at h
  have hle := (unended_sublist Token.kind 0 ts).length_le
  rw [h, List.length_cons] at hle
  omega

namespace Splitter

/-- What one more token does to a statement that is being read: the statement that it ends, and what
    was read of the next one. -/
inductive StepsTo (s : Splitter) (t : Token) (rest : List Token) :
    List (Statement × Terminator) × Splitter → Prop where
  /-- A semicolon behind nothing. -/
  | skips : t.kind = .semicolon → s.current = [] → StepsTo s t rest ([], start)
  /-- A semicolon that ends the statement. -/
  | ends {q : Statement} : t.kind = .semicolon → s.parens = 0 → q.tokens = s.current →
      Token.Unended q.tokens → StepsTo s t rest ([(q, .semicolon)], start)
  /-- The last word of a statement that opens a body. -/
  | opens {q : Statement} : q.tokens = s.current ++ [t] → Token.Unended q.tokens →
      depthAfterAll Token.kind 0 q.tokens = 0 → q.opener?.isSome = true →
      StepsTo s t rest ([(q, .opening)], start)
  /-- A token that the statement goes on behind. -/
  | goesOn : s.endsAt t = false → (s.add t rest).Sound rest → (s.add t rest).awaited ≠ some 0 →
      StepsTo s t rest ([], s.add t rest)

/-- A step has one of these forms. -/
theorem Sound.stepsTo {s : Splitter} {t : Token} {rest : List Token} (h : s.Sound (t :: rest))
    (hread : t.IsRead) : s.StepsTo t rest (s.step t rest) := by
  unfold step
  by_cases hend : s.endsAt t = true
  · obtain ⟨hk, hparens⟩ := endsAt_iff.mp hend
    rw [if_pos hend, finish]
    by_cases hnil : s.current = []
    · rw [dif_pos hnil]
      exact .skips hk hnil
    · rw [dif_neg hnil]
      exact .ends hk hparens rfl h.unended
  · rw [if_neg hend]
    rw [Bool.not_eq_true] at hend
    obtain ⟨hopens, hgoes⟩ := h.add hread hend
    obtain ⟨hparens, hunended⟩ := h.current_add hend
    by_cases hzero : (s.add t rest).awaited = some 0
    · -- No parenthesis is open behind the word that opens a body, so everything starts anew.
      obtain ⟨hdepth, hopener⟩ := hopens hzero
      have hne : (s.add t rest).current ≠ [] := by simp [Splitter.current_add]
      have hstart : ({ start with parens := (s.add t rest).parens } : Splitter) = start := by
        rw [hdepth]
        rfl
      simp only
      rw [if_pos hzero, finish, dif_neg hne, hstart]
      exact .opens (q := ⟨_, hne⟩) (Splitter.current_add ..) hunended (hparens ▸ hdepth)
        (hopener _ rfl)
    · simp only
      rw [if_neg hzero]
      exact .goesOn hend (hgoes hzero) hzero

end Splitter

/-! ### Sequences of statements -/

namespace Statement

/-- How a sequence of tokens is cut into statements. A semicolon outside of all parentheses belongs
    to none, and a statement that no semicolon ends opens a body or is the last one. -/
inductive Cuts : List Token → List Statement → Prop where
  | nil : Cuts [] []
  | semicolon {t : Token} {ts : List Token} {ss : List Statement} :
      t.kind = .semicolon → Cuts ts ss → Cuts (t :: ts) ss
  | last {s : Statement} : Token.Unended s.tokens → Cuts s.tokens [s]
  | ended {s : Statement} {t : Token} {ts : List Token} {ss : List Statement} :
      Token.Unended s.tokens → depthAfterAll Token.kind 0 s.tokens = 0 → t.kind = .semicolon →
      Cuts ts ss → Cuts (s.tokens ++ t :: ts) (s :: ss)
  | opening {s : Statement} {ts : List Token} {ss : List Statement} :
      Token.Unended s.tokens → depthAfterAll Token.kind 0 s.tokens = 0 →
      s.opener?.isSome = true → Cuts ts ss → Cuts (s.tokens ++ ts) (s :: ss)

end Statement

/-- What is still to come cuts the tokens of the statement that is being read, and those that come
    next. -/
theorem Splitter.Sound.cuts {s : Splitter} {ts : List Token} (h : s.Sound ts)
    (hread : ∀ t ∈ ts, t.IsRead) : Statement.Cuts (s.current ++ ts) (s.split ts) := by
  induction ts generalizing s with
  | nil =>
    rw [List.append_nil, split, finish]
    split
    · rename_i hnil
      rw [hnil]
      exact .nil
    · exact .last (s := ⟨s.current, ‹_›⟩) h.unended
  | cons t rest ih =>
    have hrest : ∀ u ∈ rest, u.IsRead := fun u hu => hread u (by simp [hu])
    have hstart := ih (sound_start rest) hrest
    have hstep := h.stepsTo (hread t (by simp))
    rw [split_cons]
    generalize s.step t rest = next at hstep
    cases hstep with
    | skips hk hnil =>
      rw [hnil]
      exact .semicolon hk hstart
    | ends hk hparens hq hunended =>
      rw [← hq]
      exact .ended hunended (by rw [hq, ← h.parens, hparens]) hk hstart
    | @opens q hq hunended hdepth hopener =>
      have hmove : s.current ++ t :: rest = q.tokens ++ rest := by simp [hq]
      rw [hmove]
      exact .opening hunended hdepth hopener hstart
    | goesOn _ hsound =>
      have hmove : s.current ++ t :: rest = (s.add t rest).current ++ rest := by
        simp [Splitter.current_add]
      rw [hmove]
      exact ih hsound hrest

namespace Statement

/-- The statements that are read cut the sequence of tokens. -/
theorem cuts_ofTokens {ts : List Token} (hread : ∀ t ∈ ts, t.IsRead) : Cuts ts (ofTokens ts) :=
  (Splitter.sound_start ts).cuts hread

/-- The tokens of the statements are those of the sequence, without the semicolons that end
    statements. -/
theorem Cuts.flatMap_tokens {ts : List Token} {ss : List Statement} (h : Cuts ts ss) :
    ss.flatMap (·.tokens) = unended Token.kind 0 ts := by
  induction h with
  | nil => rfl
  | semicolon hk _ ih => rw [ih, unended, if_pos ⟨hk, rfl⟩]
  | last h => simpa using h.symm
  | ended h hdepth hk _ ih =>
    rw [List.flatMap_cons, unended_append, hdepth, unended, if_pos ⟨hk, rfl⟩, ih, h]
  | opening h hdepth _ _ ih => rw [List.flatMap_cons, unended_append, hdepth, ih, h]

/-- A sequence that is cut starts with semicolons, and then the first statement. -/
theorem Cuts.exists_head {ts : List Token} {s : Statement} {ss : List Statement}
    (h : Cuts ts (s :: ss)) : ∃ gap back, ts = gap ++ s.tokens ++ back ∧
      (∀ u ∈ gap, u.kind = .semicolon) ∧ unended Token.kind 0 back = ss.flatMap (·.tokens) := by
  generalize hss : s :: ss = all at h
  induction h with
  | nil => exact absurd hss (by simp)
  | @semicolon t ts all hk _ ih =>
    obtain ⟨gap, back, rfl, hgap, hback⟩ := ih hss
    exact ⟨t :: gap, back, rfl, List.forall_mem_cons.mpr ⟨hk, hgap⟩, hback⟩
  | last =>
    obtain ⟨rfl, rfl⟩ := List.cons.inj hss
    exact ⟨[], [], by simp, by simp, rfl⟩
  | @ended s t ts ss _ _ hk hrest =>
    obtain ⟨rfl, rfl⟩ := List.cons.inj hss
    exact ⟨[], t :: ts, rfl, by simp, by rw [unended, if_pos ⟨hk, rfl⟩, hrest.flatMap_tokens]⟩
  | @opening s ts ss _ _ _ hrest =>
    obtain ⟨rfl, rfl⟩ := List.cons.inj hss
    exact ⟨[], ts, rfl, by simp, hrest.flatMap_tokens.symm⟩

end Statement

end SqlScript
