import SqlScript.Layout.Page
import SqlScript.Proofs.Script.Run

namespace SqlScript

/-!
# What ends a statement, and what it opens

While a statement is read, `CASE` expressions are counted, so that the words in them open no body.
The finished statement is asked for the word with which it opens a body by its last words alone.

* `Statement.openCases` — the number of `CASE` expressions that are open at the end of a statement;
* `Splitter.OpensNothing` — whether a statement that ends with the tokens would open no body;
* `Splitter.Tracked` — what is known of a statement that is being read: where no parenthesis and no
  `CASE` expression is open and nothing is waited for, it opens no body with its last word;
* `Splitter.Tracked.step` and `Splitter.Tracked.run` — what one token and a sequence of tokens keep;
* `Script.isSome_opener?_iff` — without an open `CASE` expression, a statement opens a body exactly
  when it was ended by an opening word.
-/

/-! ### `CASE` expressions -/

/-- The number of `CASE` expressions that are open after the word, when `count` are before it. An
    `END` that closes none does not count. -/
def Token.casesAfter (count : Nat) (t : Token) : Nat :=
  if t.spells "CASE" then count + 1 else if t.spells "END" then count - 1 else count

/-- The number of `CASE` expressions that are open after the tokens, when `count` are before them and
    `depth` parentheses. The words between parentheses do not count. -/
def openCases (depth count : Nat) : List Token → Nat
  | [] => count
  | t :: ts =>
    openCases (t.kind.depthAfter depth) (if depth = 0 then t.casesAfter count else count) ts

/-- The `CASE` expressions that are open behind two parts are counted from behind the first one. -/
theorem openCases_append (depth count : Nat) (ts us : List Token) : openCases depth count (ts ++ us)
    = openCases (depthAfterAll Token.kind depth ts) (openCases depth count ts) us := by
  induction ts generalizing depth count with
  | nil => rfl
  | cons t ts ih =>
    rw [List.cons_append, openCases, ih]
    rfl

/-- What is no parenthesis does not change how many are open. -/
theorem Token.IsLevel.depthAfter {t : Token} (h : t.IsLevel) (depth : Nat) :
    t.kind.depthAfter depth = depth := by
  unfold Kind.depthAfter
  split
  · rename_i hk
    exact absurd hk h.1
  · rename_i hk
    exact absurd hk h.2
  · rfl

/-- What is no word of the language opens and closes no `CASE` expression. -/
theorem Token.IsRead.casesAfter_of_kind {t : Token} (h : t.IsRead)
    (hk : t.kind.isBareWord = false) (count : Nat) : t.casesAfter count = count := by
  rw [casesAfter, h.spells_eq_false_of_kind hk (by decide), h.spells_eq_false_of_kind hk (by decide)]
  rfl

namespace Statement

/-- The number of `CASE` expressions that are open at the end of the statement. -/
def openCases (s : Statement) : Nat := SqlScript.openCases 0 0 s.tokens

/-- The number of parentheses that are open at the end of the statement. -/
def openParens (s : Statement) : Nat := depthAfterAll Token.kind 0 s.tokens

/-! ### Statements that open nothing -/

/-- With which word a statement opens a body depends on the tokens that are no comments. -/
theorem opener?_congr {s q : Statement} (h : s.significant = q.significant) :
    s.opener? = q.opener? := by
  have hgoverned : governed s.tokens = governed q.tokens := congrArg (fun ts => (splitLabel ts).2) h
  unfold opener? hasVerb verb? governingVerb? governing? operands
  rw [h, hgoverned]

end Statement

namespace Splitter

/-- Whether a statement that ends with the tokens would open no body, nor would one that ends with an
    `ATOMIC` behind them. -/
structure OpensNothing (ts : List Token) : Prop where
  opener : ∀ s : Statement, s.tokens = ts → s.opener? = none
  begin : Statement.endsInBegin ((Token.significant ts).map Token.key).reverse = false

/-- No statement ends with no tokens. -/
theorem opensNothing_nil : OpensNothing [] :=
  ⟨fun s hs => absurd hs s.nonempty, rfl⟩

/-- A comment changes nothing. -/
theorem OpensNothing.comment {ts : List Token} (h : OpensNothing ts) {t : Token}
    (ht : t.isComment = true) : OpensNothing (ts ++ [t]) := by
  have hsignificant : Token.significant (ts ++ [t]) = Token.significant ts := by
    simp [Token.significant, ht]
  refine ⟨fun s hs => ?_, by rw [hsignificant]; exact h.begin⟩
  by_cases hnil : ts = []
  · -- There is nothing but the comment.
    have hnone : s.significant = [] := by
      rw [Statement.significant, hs, hsignificant, hnil]
      rfl
    rw [Statement.opener?, hnone]
    rfl
  · rw [← h.opener ⟨ts, hnil⟩ rfl]
    refine Statement.opener?_congr ?_
    rw [Statement.significant, hs, hsignificant]
    rfl

/-- Where nothing follows the governing token, that is the last one, and spells the verb. -/
theorem governed_of_operands {s : Statement} {ts : List Token} {t : Token} {v : Verb}
    (hs : s.tokens = ts ++ [t]) (ht : t.isComment = false) (hoperands : s.operands = [])
    (hv : s.verb? = some v) : governed (ts ++ [t]) = [t] ∧ t.key = v.word := by
  rw [Statement.verb?, governingVerb?, governing?, hs] at hv
  have hgoverned : governed (ts ++ [t]) = [t] := by
    refine Statement.governed_eq_singleton ht ?_
    have htail : (governed (ts ++ [t])).tail = [] := by rw [← hs]; exact hoperands
    cases hg : governed (ts ++ [t]) with
    | nil => rw [hg] at hv; simp at hv
    | cons u us => rw [hg] at htail; simp_all
  rw [hgoverned] at hv
  have hkey : Verb.ofKey? t.key = some v := hv
  have hword := List.find?_some hkey
  exact ⟨hgoverned, (beq_iff_eq.mp hword).symm⟩

/-- What ends in `BEGIN` has this word at the end, or in front of a `NOT` there. -/
theorem endsInBegin_concat {ts : List Token} {t : Token} (ht : t.isComment = false)
    (hbegin : t.spells "BEGIN" = false) (hbefore : t.spells "NOT" = true →
      Statement.endsInBegin ((Token.significant ts).map Token.key).reverse = false) :
    Statement.endsInBegin ((Token.significant (ts ++ [t])).map Token.key).reverse = false := by
  have hkeys : ((Token.significant (ts ++ [t])).map Token.key).reverse
      = t.key :: ((Token.significant ts).map Token.key).reverse := by
    simp [Token.significant, ht]
  rw [hkeys, Statement.endsInBegin]
  by_cases hnot : t.key = "NOT".toList
  · rw [if_pos hnot]
    have hb := hbefore (by simp [Token.spells, hnot])
    generalize ((Token.significant ts).map Token.key).reverse = words at hb ⊢
    cases words with
    | nil => rfl
    | cons w words =>
      -- `BEGIN` in front of `NOT` would end in `BEGIN` itself.
      by_contra hw
      rw [Bool.not_eq_false, List.head?_cons, beq_iff_eq, Option.some.injEq] at hw
      rw [hw] at hb
      exact absurd hb (by simp [Statement.endsInBegin])
  · rw [if_neg hnot]
    exact hbegin

/-- A last word with which no body is found to be opened while it is read opens none. -/
theorem opensNothing_concat {ts : List Token} {t : Token} (ht : t.isComment = false)
    (hbegin : t.spells "BEGIN" = false) (hbody : opensBody (ts ++ [t]) t = false)
    (hbefore : t.spells "ATOMIC" = true ∨ t.spells "NOT" = true →
      Statement.endsInBegin ((Token.significant ts).map Token.key).reverse = false) :
    OpensNothing (ts ++ [t]) := by
  refine ⟨fun s hs => ?_, endsInBegin_concat ht hbegin fun hnot => hbefore (.inr hnot)⟩
  have hverb : ∀ verbs : List Verb,
      ((governingVerb? (ts ++ [t])).any fun v => verbs.contains v) = s.hasVerb verbs :=
    fun verbs => by rw [Statement.hasVerb, Statement.verb?, hs]
  rw [opensBody, Bool.or_eq_false_iff, Bool.or_eq_false_iff] at hbody
  simp only [hverb] at hbody
  obtain ⟨⟨hthen, hdo⟩, halone⟩ := hbody
  rw [Statement.opener?_of_last hs ht, Statement.openerAt?, hbegin, hthen, hdo]
  by_cases hatomic : t.spells "ATOMIC" = true
  · rw [if_pos hatomic, hbefore (.inl hatomic)]
    rfl
  · rw [if_neg hatomic]
    simp only [Bool.false_eq_true, if_false, ite_eq_right_iff, List.isEmpty_iff,
      Option.bind_eq_none_iff]
    -- A verb that opens a body on its own would be the last word, and the only governed one.
    intro hoperands v hv
    obtain ⟨hgoverned, hword⟩ := governed_of_operands hs ht hoperands hv
    rw [hgoverned, List.length_singleton, beq_self_eq_true, Bool.and_true, hword] at halone
    cases v <;> first | rfl | exact absurd halone (by decide)

/-- What is no word of the language opens nothing. -/
theorem opensNothing_of_not_word {ts : List Token} {t : Token} (hread : t.IsRead)
    (hk : t.kind.isBareWord = false) (ht : t.isComment = false) : OpensNothing (ts ++ [t]) := by
  have hnone : ∀ {w : String}, isReserved w = true → t.spells w = false :=
    fun hw => hread.spells_eq_false_of_kind hk hw
  refine opensNothing_concat ht (hnone (by decide)) ?_ fun h => ?_
  · have halone : isOneOf ["ELSE", "LOOP", "REPEAT"] t.key = false := by
      rw [isOneOf, List.any_eq_false]
      intro w hw
      have := hnone (w := w) (by
        simp only [List.mem_cons, List.not_mem_nil, or_false] at hw
        rcases hw with rfl | rfl | rfl <;> decide)
      rw [Token.spells, Bool.beq_comm] at this
      simp [this]
    rw [opensBody, hnone (by decide), hnone (by decide), halone]
    rfl
  · rw [hnone (by decide), hnone (by decide)] at h
    simp at h

/-! ### A statement that is being read -/

/-- A word opens a `CASE` expression, closes one, or leaves all of them as they are. -/
theorem cases_readWord (s : Splitter) (t : Token) (following : List Token) :
    (s.readWord t following).cases = t.casesAfter s.cases := by
  unfold readWord Token.casesAfter
  by_cases hcase : t.spells "CASE" = true
  · rw [if_pos hcase, if_pos hcase]
  · rw [if_neg hcase, if_neg hcase]
    by_cases hend : t.spells "END" = true
    · rw [if_pos hend, hend, Bool.true_and]
      by_cases hopen : 0 < s.cases
      · rw [if_pos (by simpa using hopen)]
      · rw [if_neg (by simpa using hopen), if_neg hopen]
        have hzero : s.cases - 1 = s.cases := by omega
        rw [hzero]
        split
        · rfl
        · split <;> rfl
    · have hother : t.spells "END" = false := by simpa using hend
      rw [if_neg hend, hother]
      simp only [Bool.false_and, Bool.false_eq_true, if_false]
      repeat' split
      all_goals rfl

/-- The `CASE` expressions that are open are counted outside of all parentheses. -/
theorem cases_add {s : Splitter} {t : Token} (hread : t.IsRead) (following : List Token) :
    (s.add t following).cases = if s.parens = 0 then t.casesAfter s.cases else s.cases := by
  by_cases hk : t.kind.isBareWord = true
  · have hlevel := Token.isLevel_of_isBareWord hk
    unfold add
    split
    · rename_i hopen
      exact absurd hopen hlevel.1
    · rename_i hclose
      exact absurd hclose hlevel.2
    · by_cases hparens : s.parens = 0
      · simp only [if_pos (And.intro hparens hk), if_pos hparens]
        exact cases_readWord _ t following
      · simp only [hparens, false_and, if_false]
  · rw [Bool.not_eq_true] at hk
    rw [hread.casesAfter_of_kind hk, ite_self]
    unfold add
    split
    · rfl
    · rfl
    · simp [hk]

/-- A word behind which nothing is waited for, and no `CASE` expression is open, is an `END`, or no
    expression was open before it and it opens no body. -/
theorem word_of_readWord {s : Splitter} {t : Token} {following : List Token}
    (hnone : (s.readWord t following).awaited = none) (hclosed : t.casesAfter s.cases = 0) :
    t.spells "END" = true ∨
      s.cases = 0 ∧ t.spells "BEGIN" = false ∧ opensBody s.current t = false := by
  unfold Token.casesAfter at hclosed
  by_cases hcase : t.spells "CASE" = true
  · rw [if_pos hcase] at hclosed
    exact absurd hclosed (by omega)
  by_cases hend : t.spells "END" = true
  · exact .inl hend
  rw [if_neg hcase, if_neg hend] at hclosed
  rw [Bool.not_eq_true] at hend
  have hopen : ¬0 < s.cases := by omega
  simp only [readWord, if_neg hcase, hend, Bool.false_and, Bool.false_eq_true, if_false,
    if_neg hopen] at hnone
  have hbegin : t.spells "BEGIN" = false := by
    by_contra hbegin
    rw [Bool.not_eq_false] at hbegin
    simp [hbegin] at hnone
  have hbody : opensBody s.current t = false := by
    by_contra hbody
    rw [Bool.not_eq_false] at hbody
    simp [hbegin, hbody] at hnone
  exact .inr ⟨hclosed, hbegin, hbody⟩

/-- What is known of a statement that is being read, the `CASE` expressions in it included. -/
structure Tracked (s : Splitter) (following : List Token) : Prop extends s.Sound following where
  cases : s.cases = openCases 0 0 s.current
  opensNothing : s.awaited = none → s.parens = 0 → s.cases = 0 → OpensNothing s.current

/-- At the start nothing is known, and nothing has to be. -/
theorem tracked_start (following : List Token) : start.Tracked following :=
  ⟨sound_start following, rfl, fun _ _ _ => opensNothing_nil⟩

/-- One more token of a statement that goes on behind it. -/
theorem Tracked.add {s : Splitter} {t : Token} {rest : List Token} (h : s.Tracked (t :: rest))
    (hread : t.IsRead) (hend : s.endsAt t = false) (hgoes : (s.add t rest).awaited ≠ some 0) :
    (s.add t rest).Tracked rest := by
  have hcases := cases_add (s := s) hread rest
  have hparens := parens_add s t rest
  refine ⟨(h.toSound.add hread hend).2 hgoes, ?_, fun hnone hzero hclosed => ?_⟩
  · rw [hcases, current_add, openCases_append, ← h.parens, ← h.cases]
    rfl
  rw [current_add]
  have hawaited : s.awaited = none := by
    cases hs : s.awaited with
    | none => rfl
    | some count =>
      rw [((h.awaits count hs).add hs hread).1] at hnone
      exact absurd hnone (by simp [awaiting])
  by_cases hcomment : t.isComment = true
  · -- A comment opens and closes nothing.
    have hk : t.kind = .comment := by simpa [Token.isComment] using hcomment
    have hbare : t.kind.isBareWord = false := by rw [hk]; rfl
    rw [hparens, hk] at hzero
    have hs : s.parens = 0 := hzero
    rw [hcases, if_pos hs, hread.casesAfter_of_kind hbare] at hclosed
    exact (h.opensNothing hawaited hs hclosed).comment hcomment
  rw [Bool.not_eq_true] at hcomment
  by_cases hk : t.kind.isBareWord = true
  · have hlevel := Token.isLevel_of_isBareWord hk
    have hs : s.parens = 0 := by
      rw [hparens, Token.IsLevel.depthAfter hlevel] at hzero
      exact hzero
    have hadd := add_of_isLevel hlevel rest hawaited
    rw [if_pos ⟨hs, hk⟩] at hadd
    rw [hcases, if_pos hs] at hclosed
    rw [hadd] at hnone
    rcases word_of_readWord hnone hclosed with hword | ⟨hzero, hbegin, hbody⟩
    · -- An `END` opens nothing, be it the one of an expression or not.
      refine opensNothing_concat hcomment (Token.spells_eq_false hword _ (by decide))
        (opensBody_eq_false_of_spells hword (by decide) _) fun hother => ?_
      rw [Token.spells_eq_false hword "ATOMIC" (by decide),
        Token.spells_eq_false hword "NOT" (by decide)] at hother
      simp at hother
    · exact opensNothing_concat hcomment hbegin hbody fun _ =>
        (h.opensNothing hawaited hs hzero).begin
  · exact opensNothing_of_not_word hread (Bool.not_eq_true _ ▸ hk) hcomment

end Splitter

/-! ### Finished statements -/

/-- What ended a statement tells with which parentheses and `CASE` expressions it can end, and whether
    it opens a body. -/
structure Terminator.Fits (e : Terminator) (s : Statement) : Prop where
  opening : e = .opening → s.opener?.isSome = true ∧ s.openParens = 0
  semicolon : e = .semicolon → s.openParens = 0
  other : e ≠ .opening → s.openParens = 0 → s.openCases = 0 → s.opener? = none

namespace Splitter

/-- A statement that ends although nothing in it opens a body. -/
theorem Tracked.fits_finish {s : Splitter} {following : List Token} (h : s.Tracked following)
    (hawaited : s.awaited = none) {e : Terminator} (he : e ≠ .opening)
    (hparens : e = .semicolon → s.parens = 0) :
    ∀ p ∈ s.finish.map fun q => (q, e), p.2.Fits p.1 := by
  unfold finish
  split
  · simp
  · rename_i hne
    intro p hp
    obtain rfl : p = (⟨s.current, hne⟩, e) := by simpa using hp
    refine ⟨fun hopening => absurd hopening he, fun hsemicolon => ?_, fun _ hdepth hcases => ?_⟩
    · exact h.parens.symm.trans (hparens hsemicolon)
    · exact (h.opensNothing hawaited (h.parens.trans hdepth) (h.cases.trans hcases)).opener _ rfl

/-- One more token keeps what is known, and what it ends fits. -/
theorem Tracked.step {s : Splitter} {t : Token} {rest : List Token} (h : s.Tracked (t :: rest))
    (hread : t.IsRead) :
    (∀ p ∈ (s.step t rest).1, p.2.Fits p.1) ∧ (s.step t rest).2.Tracked rest := by
  have hstep := h.toSound.stepsTo hread
  generalize s.step t rest = next at hstep
  cases hstep with
  | skips => exact ⟨by simp, tracked_start rest⟩
  | @ends q hk hparens hq =>
    have hfits := h.fits_finish (h.awaited_eq_none hk hread) (e := .semicolon) (by decide)
      fun _ => hparens
    rw [finish_of_current hq.symm] at hfits
    exact ⟨hfits, tracked_start rest⟩
  | @opens q hq _ hdepth hopener =>
    refine ⟨fun p hp => ?_, tracked_start rest⟩
    obtain rfl : p = (q, .opening) := by simpa using hp
    exact ⟨fun _ => ⟨hopener, hdepth⟩,
      fun he => absurd he (show Terminator.opening ≠ .semicolon by decide), fun he => absurd rfl he⟩
  | goesOn hend _ hne => exact ⟨by simp, h.add hread hend hne⟩

/-- What is known is kept by a sequence of tokens, and what ends in it fits. -/
theorem Tracked.run {s : Splitter} {ts following : List Token} (h : s.Tracked (ts ++ following))
    (hread : ∀ t ∈ ts, t.IsRead) :
    (∀ p ∈ (Splitter.run following s ts).1, p.2.Fits p.1) ∧
      (Splitter.run following s ts).2.Tracked following := by
  induction ts generalizing s with
  | nil => exact ⟨by simp [Splitter.run], h⟩
  | cons t ts ih =>
    rw [List.cons_append] at h
    obtain ⟨hdone, hnext⟩ := h.step (hread t (by simp))
    obtain ⟨hmore, hlast⟩ := ih hnext fun u hu => hread u (by simp [hu])
    exact ⟨List.forall_mem_append.mpr ⟨hdone, hmore⟩, hlast⟩

end Splitter

namespace Statement

/-- The statements that a sequence of tokens makes, each with what ends it. -/
def ended (ts : List Token) : List (Statement × Terminator) :=
  (Splitter.run [] .start ts).1
    ++ (Splitter.run [] .start ts).2.finish.map fun s => (s, .scriptEnd)

/-- The statements listed with their ends are those that the tokens make. -/
theorem map_fst_ended (ts : List Token) : (ended ts).map Prod.fst = ofTokens ts := by
  have hsplit := Splitter.split_append .start ts []
  have hlast : ((Splitter.run [] .start ts).2.finish.map fun s => (s, Terminator.scriptEnd)).map
      Prod.fst = (Splitter.run [] .start ts).2.finish := by
    rw [List.map_map]
    exact List.map_id _
  rw [List.append_nil] at hsplit
  rw [ended, List.map_append, hlast, ofTokens, hsplit]
  rfl

/-- What ends a statement fits it. -/
theorem fits_of_mem_ended {ts : List Token} (hread : ∀ t ∈ ts, t.IsRead) :
    ∀ p ∈ ended ts, p.2.Fits p.1 := by
  have htracked : Splitter.start.Tracked (ts ++ []) := Splitter.tracked_start _
  obtain ⟨hdone, hlast⟩ := htracked.run hread
  refine List.forall_mem_append.mpr ⟨hdone, ?_⟩
  exact hlast.fits_finish hlast.awaited_eq_none_of_nil (by decide) fun he => absurd he (by decide)

end Statement

namespace Script

/-- Where no `CASE` expression is open at its end, a statement with all its parentheses closed opens a
    body exactly when it was ended right behind the opening word. So the semicolon behind any other
    one is written again, unless there is nothing but comments. A statement that an opening word ended
    always opens a body, and one that a semicolon ended has its parentheses closed. -/
theorem isSome_opener?_iff (t : Text) :
    (Statement.ended (Token.scan t)).map Prod.fst = (ofText t).statements ∧
      ∀ s e, (s, e) ∈ Statement.ended (Token.scan t) →
        (e = .opening → s.opener?.isSome = true) ∧ (e = .semicolon → s.openParens = 0) ∧
          (s.openParens = 0 → s.openCases = 0 → (s.opener?.isSome = true ↔ e = .opening)) ∧
          (e = .semicolon → s.openCases = 0 → s.isTerminated = !s.significant.isEmpty) := by
  refine ⟨Statement.map_fst_ended _, fun s e hmem => ?_⟩
  have hfits : e.Fits s :=
    Statement.fits_of_mem_ended (fun u hu => Token.isRead_of_mem_scan hu) (s, e) hmem
  refine ⟨fun he => (hfits.opening he).1, hfits.semicolon, fun hparens hcases => ?_,
    fun he hcases => ?_⟩
  · constructor
    · intro hsome
      by_contra he
      rw [hfits.other he hparens hcases] at hsome
      exact absurd hsome (by decide)
    · intro he
      exact (hfits.opening he).1
  · have hnone : s.opener? = none :=
      hfits.other (by rw [he]; decide) (hfits.semicolon he) hcases
    rw [Statement.isTerminated, hnone, Option.isNone_none, Bool.and_true]

/-- With a `CASE` expression open, a semicolon can end a statement that opens a body with the word in
    front of it. The semicolon is not written again, and the next statement is indented. -/
theorem exists_opener?_of_openCases :
    (∃ s, (s, .semicolon) ∈ Statement.ended (Token.scan "IF CASE WHEN A THEN; SELECT 1".toList) ∧
        s.openParens = 0 ∧ s.openCases = 1 ∧ s.opener? = some .THEN) ∧
      Style.format ⟨⟨4, false⟩, ⟨.preserve, .preserve⟩, false⟩ "IF CASE WHEN A THEN; SELECT 1".toList
        = .ok "IF CASE WHEN A THEN\n    SELECT 1;".toList :=
  ⟨⟨⟨(Token.scan "IF CASE WHEN A THEN; SELECT 1".toList).take 5, by decide +kernel⟩,
    by decide +kernel, by decide +kernel, by decide +kernel, by decide +kernel⟩, by decide +kernel⟩

end Script

end SqlScript
