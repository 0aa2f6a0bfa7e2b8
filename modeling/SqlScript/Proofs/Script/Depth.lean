import SqlScript.Proofs.Script.Reading

namespace SqlScript

/-!
# The depth of statements

What the statements of the grammar add to the number of open bodies.

* `Statement.depthChange_sentence` — a sentence adds nothing;
* `Statement.opener?_of_concat` — with which word a statement opens a body, from its last token;
* `Statement.depthChange_begin`, `Statement.depthChange_guarded` and `Statement.depthChange_bare` —
  a statement that opens the first body of a construct adds one, and one that opens another body
  adds nothing, as it closes the one before;
* `Statement.depthChange_end`, `Statement.depthChange_conditionEnd` and
  `Statement.depthChange_until` — one that closes the last body takes one away.
-/

/-! ### Tokens that end no statement -/

namespace Token

/-- What comes after the first of the tokens closes what is open there. -/
theorem isInert_tail {stops : List String} {parens cases : Nat} {t : Token} {ts : List Token}
    (h : isInert stops parens cases (t :: ts) = true) :
    ∃ parens' cases', isInert stops parens' cases' ts = true ∧ (t.IsLevel → parens' = parens) := by
  unfold isInert at h
  split at h
  · rename_i hk
    exact ⟨_, _, h, fun hl => absurd hk hl.1⟩
  · rename_i hk
    exact ⟨_, _, (Bool.and_eq_true_iff.mp h).2, fun hl => absurd hk hl.2⟩
  · split at h
    · exact ⟨_, _, h, fun _ => rfl⟩
    · obtain rfl : parens = 0 := by omega
      split at h
      · exact ⟨_, _, h, fun _ => rfl⟩
      · split at h <;> exact ⟨_, _, (Bool.and_eq_true_iff.mp h).2, fun _ => rfl⟩

/-- Only parentheses close parentheses. -/
theorem parens_eq_zero_of_isInert {stops : List String} {parens cases : Nat} {ts : List Token}
    (h : isInert stops parens cases ts = true) (hts : ∀ t ∈ ts, t.IsLevel) : parens = 0 := by
  induction ts generalizing parens cases with
  | nil =>
    simp only [isInert, Bool.and_eq_true, beq_iff_eq] at h
    exact h.1
  | cons t ts ih =>
    obtain ⟨parens', cases', h', hparens⟩ := isInert_tail h
    rw [← hparens (hts t (by simp))]
    exact ih h' fun u hu => hts u (by simp [hu])

/-- No `BEGIN` is the last word but some others. -/
theorem spells_begin_eq_false {stops : List String} {parens cases : Nat} {before after : List Token}
    {t : Token} (h : isInert stops parens cases (before ++ t :: after) = true) (hread : t.IsRead)
    (hafter : ∀ u ∈ after, u.IsLevel) : t.spells "BEGIN" = false := by
  by_contra hbegin
  rw [Bool.not_eq_false] at hbegin
  have ht := isLevel_of_isBareWord (hread.isBareWord_of_spells (by decide) hbegin)
  induction before generalizing parens cases with
  | nil =>
    obtain rfl := parens_eq_zero_of_isInert h fun u hu => by
      rcases List.mem_cons.mp hu with rfl | hu
      · exact ht
      · exact hafter u hu
    rw [List.nil_append] at h
    unfold isInert at h
    split at h
    · rename_i hk
      exact ht.1 hk
    · rename_i hk
      exact ht.2 hk
    · simp [spells_eq_false hbegin "CASE" (by decide),
        spells_eq_false hbegin "END" (by decide), hbegin] at h
  | cons u before ih =>
    obtain ⟨_, _, h', -⟩ := isInert_tail h
    exact ih h'

end Token

/-! ### Ends of conditions -/

namespace Statement

/-- An `END` of a condition starts at the first of two tokens or behind it. -/
theorem hasConditionEnd_cons_cons (t u : Token) (ts : List Token) :
    hasConditionEnd (t :: u :: ts)
      = ((t.spells "END" && isConditionKey u.key) || hasConditionEnd (u :: ts)) := by
  simp [hasConditionEnd]

/-- No condition ends where neither of two parts ends one, nor does one where they meet. -/
theorem hasConditionEnd_append {ts us : List Token} (hts : hasConditionEnd ts = false)
    (hus : hasConditionEnd us = false)
    (hmeet : (∀ t ∈ ts.getLast?, t.spells "END" = false) ∨
      ∀ u ∈ us.head?, isConditionKey u.key = false) :
    hasConditionEnd (ts ++ us) = false := by
  induction ts with
  | nil => exact hus
  | cons t ts ih =>
    cases ts with
    | nil =>
      cases us with
      | nil => exact hts
      | cons u us =>
        rw [List.singleton_append, hasConditionEnd_cons_cons, hus, Bool.or_false]
        rcases hmeet with h | h
        · rw [h t (by simp), Bool.false_and]
        · rw [h u (by simp), Bool.and_false]
    | cons u ts =>
      rw [hasConditionEnd_cons_cons, Bool.or_eq_false_iff] at hts
      rw [List.cons_append, List.cons_append, hasConditionEnd_cons_cons, hts.1, Bool.false_or]
      exact ih hts.2 (by simpa using hmeet)

/-- A condition that ends in the last part of a sequence ends in it. -/
theorem hasConditionEnd_append_right (ts : List Token) {us : List Token}
    (hus : hasConditionEnd us = true) : hasConditionEnd (ts ++ us) = true := by
  induction ts with
  | nil => exact hus
  | cons t ts ih =>
    rw [List.cons_append]
    cases htail : ts ++ us with
    | nil => rw [htail] at ih; exact absurd ih (by decide)
    | cons u rest => rw [hasConditionEnd_cons_cons, ← htail, ih, Bool.or_true]

/-! ### What a statement opens and closes -/

/-- A statement of some verb is of none of the others. -/
theorem hasVerb_eq_false {s : Statement} (verbs : List Verb) {others : List Verb}
    (hverb : ∀ v ∈ s.verb?, v ∉ others) (hsub : ∀ v ∈ verbs, v ∈ others) :
    s.hasVerb verbs = false := by
  unfold hasVerb
  cases hv : s.verb? with
  | none => rfl
  | some v =>
    rw [Option.any_some, ← Bool.not_eq_true, List.contains_iff_mem]
    exact fun hmem => hverb v hv (hsub v hmem)

/-- A statement of some other verb closes nothing, when no condition ends in it. -/
theorem closes_eq_false {s : Statement} (hcomment : ∀ t ∈ s.tokens, t.isComment = false)
    (hverb : ∀ v ∈ s.verb?, v ∉ [.END, .ELSE, .ELSEIF]) (hend : hasConditionEnd s.tokens = false) :
    s.closes = false := by
  rw [closes, closesCompound, closesConditional, hasVerb_eq_false [.END] hverb (by simp),
    hasVerb_eq_false [.ELSE, .ELSEIF] hverb (by simp), significant,
    significant_of_noComment hcomment, hend]
  rfl

/-- The word with which a statement opens a body that its verb opens on its own. -/
def bareOpener? : Verb → Option Opener
  | .ELSE => some .ELSE
  | .LOOP => some .LOOP
  | .REPEAT => some .REPEAT
  | _ => none

/-- A verb that opens no body without a word of its own is no opener. -/
theorem bareOpener?_eq_none {v : Verb} (h : v ∉ bodyVerbs) : bareOpener? v = none := by
  cases v <;> first | rfl | exact absurd (by decide) h

/-- The word with which a statement opens a body when `t` is its last word, behind `before`. -/
def openerAt? (s : Statement) (before : List Token) (t : Token) : Option Opener :=
  if t.spells "ATOMIC" then
    if endsInBegin (before.map Token.key).reverse then some .BEGIN else none
  else if t.spells "BEGIN" then some .BEGIN
  else if t.spells "THEN" && s.hasVerb [.IF, .ELSEIF] then some .THEN
  else if t.spells "DO" && s.hasVerb [.WHILE, .FOR] then some .DO
  else if s.operands.isEmpty then s.verb?.bind bareOpener?
  else none

section LastWord

variable {s : Statement} {before : List Token} {t : Token}

/-- `BEGIN` opens a body whatever the statement is. -/
theorem openerAt?_begin (h : t.spells "BEGIN" = true) : s.openerAt? before t = some .BEGIN := by
  rw [openerAt?, Token.spells_eq_false h "ATOMIC" (by decide), h]
  rfl

/-- `ATOMIC` opens a body behind `BEGIN` or `BEGIN NOT`. -/
theorem openerAt?_atomic (h : t.spells "ATOMIC" = true)
    (hbefore : endsInBegin (before.map Token.key).reverse = true) :
    s.openerAt? before t = some .BEGIN := by
  rw [openerAt?, if_pos h, if_pos hbefore]

/-- `THEN` opens a body in a condition. -/
theorem openerAt?_then (h : t.spells "THEN" = true) (hverb : s.hasVerb [.IF, .ELSEIF] = true) :
    s.openerAt? before t = some .THEN := by
  rw [openerAt?, Token.spells_eq_false h "ATOMIC" (by decide),
    Token.spells_eq_false h "BEGIN" (by decide), h, hverb]
  rfl

/-- `DO` opens a body in a loop that has a condition. -/
theorem openerAt?_do (h : t.spells "DO" = true) (hverb : s.hasVerb [.WHILE, .FOR] = true) :
    s.openerAt? before t = some .DO := by
  rw [openerAt?, Token.spells_eq_false h "ATOMIC" (by decide),
    Token.spells_eq_false h "BEGIN" (by decide), Token.spells_eq_false h "THEN" (by decide), h,
    hverb]
  rfl

/-- Behind any other last word it is up to the verb. -/
theorem openerAt?_other (h : ∀ w ∈ ["ATOMIC", "BEGIN", "THEN", "DO"], t.spells w = false) :
    s.openerAt? before t = if s.operands.isEmpty then s.verb?.bind bareOpener? else none := by
  rw [openerAt?, h "ATOMIC" (by simp), h "BEGIN" (by simp), h "THEN" (by simp), h "DO" (by simp)]
  rfl

/-- Behind every other word only a bare verb opens a body, with nothing behind it. -/
theorem openerAt?_of_spells {w : String} (h : t.spells w = true)
    (hw : w ∉ ["ATOMIC", "BEGIN", "THEN", "DO"]) :
    s.openerAt? before t = if s.operands.isEmpty then s.verb?.bind bareOpener? else none :=
  openerAt?_other fun v hv => Token.spells_eq_false h v fun heq => hw (heq ▸ hv)

end LastWord

/-- A statement that ends with no comment has its last token behind the others that are none. -/
theorem significant_of_last {s : Statement} {before : List Token} {t : Token}
    (hs : s.tokens = before ++ [t]) (ht : t.isComment = false) :
    s.significant = Token.significant before ++ [t] := by
  rw [significant, hs, Token.significant, List.filter_append,
    List.filter_cons_of_pos (by simp [ht])]
  rfl

/-- The word with which a statement opens a body, from its last token that is no comment. -/
theorem opener?_of_significant {s : Statement} {before : List Token} {t : Token}
    (hs : s.significant = before ++ [t]) : s.opener? = s.openerAt? before t := by
  have hkeys : (s.significant.map Token.key).reverse
      = t.key :: (before.map Token.key).reverse := by
    rw [hs, List.map_append, List.reverse_append]
    rfl
  rw [opener?, hkeys]
  simp only [openerAt?, Token.spells, beq_iff_eq, Bool.and_eq_true]
  cases s.verb? with
  | none => rfl
  | some v => cases v <;> rfl

/-- The word with which a statement opens a body, when it ends with no comment. -/
theorem opener?_of_last {s : Statement} {before : List Token} {t : Token}
    (hs : s.tokens = before ++ [t]) (ht : t.isComment = false) :
    s.opener? = s.openerAt? (Token.significant before) t :=
  opener?_of_significant (significant_of_last hs ht)

/-- The opening word of a statement without comments, from its last token. -/
theorem opener?_of_concat {s : Statement} (hcomment : ∀ t ∈ s.tokens, t.isComment = false)
    (before : List Token) {t : Token} (hs : s.tokens = before ++ [t]) :
    s.opener? = s.openerAt? before t := by
  have hbefore : Token.significant before = before :=
    significant_of_noComment fun u hu => hcomment u (by simp [hs, hu])
  have hlast := opener?_of_last hs (hcomment t (by simp [hs]))
  rwa [hbefore] at hlast

/-- What a statement does to the counter is known from what it opens and whether it closes. -/
theorem depthChange_of {s : Statement} {o : Option Opener} (ho : s.opener? = o) :
    s.depthChange = (if o.isSome then 1 else 0) - (if s.closes then 1 else 0) := by
  have hopens : s.opens = o.isSome := by
    rw [opens, opensCompound, opensConditional, ho]
    cases o with
    | none => rfl
    | some o => cases o <;> rfl
  rw [depthChange, hopens]

/-! ### Sentences -/

/-- No `BEGIN` stands in front of the last word, or of a `NOT` in front of it. -/
theorem endsInBegin_eq_false {before : List Token} {t : Token}
    (hinert : Token.isInert [] 0 0 (before ++ [t]) = true) (hread : ∀ u ∈ before, u.IsRead)
    (ht : t.IsLevel) : endsInBegin (before.map Token.key).reverse = false := by
  rcases List.eq_nil_or_concat before with rfl | ⟨before, u, rfl⟩
  · rfl
  rw [List.concat_eq_append] at hinert hread ⊢
  have huread := hread u (by simp)
  simp only [List.map_append, List.map_cons, List.map_nil, List.reverse_append, List.reverse_cons,
    List.reverse_nil, List.nil_append, List.singleton_append, endsInBegin]
  split
  · rename_i hnot
    have hu : u.IsLevel := Token.isLevel_of_isBareWord
      (huread.isBareWord_of_spells (w := "NOT") (by decide) (by simp [Token.spells, hnot]))
    rcases List.eq_nil_or_concat before with rfl | ⟨before, v, rfl⟩
    · rfl
    rw [List.concat_eq_append] at hinert hread ⊢
    have hinert' : Token.isInert [] 0 0 (before ++ v :: [u, t]) = true := by simpa using hinert
    have hv := Token.spells_begin_eq_false hinert' (hread v (by simp)) (by simpa using ⟨hu, ht⟩)
    simpa [Token.spells] using hv
  · have hinert' : Token.isInert [] 0 0 (before ++ u :: [t]) = true := by simpa using hinert
    have hu := Token.spells_begin_eq_false hinert' huread (by simpa using ht)
    simpa [Token.spells] using hu

/-- A statement that a semicolon ends opens no body, unless its verb does. -/
theorem opener?_eq_none {s : Statement} (hcomment : ∀ t ∈ s.tokens, t.isComment = false)
    (hread : ∀ t ∈ s.tokens, t.IsRead) (hinert : Token.isInert [] 0 0 s.tokens = true)
    (hverb : ∀ v ∈ s.verb?, v ∉ bodyVerbs) : s.opener? = none := by
  obtain ⟨before, t, hs⟩ := List.eq_nil_or_concat s.tokens |>.resolve_left s.nonempty
  rw [List.concat_eq_append] at hs
  rw [hs] at hinert hread
  have htread := hread t (by simp)
  have hbegin : t.spells "BEGIN" = false :=
    Token.spells_begin_eq_false hinert htread (by simp)
  have hatomic : t.spells "ATOMIC" = true →
      endsInBegin (before.map Token.key).reverse = false := fun h =>
    endsInBegin_eq_false hinert (fun u hu => hread u (by simp [hu]))
      (Token.isLevel_of_isBareWord (htread.isBareWord_of_spells (by decide) h))
  have hbare : s.verb?.bind bareOpener? = none :=
    Option.bind_eq_none_iff.mpr fun v hv => bareOpener?_eq_none (hverb v hv)
  rw [opener?_of_concat hcomment _ hs, openerAt?, hasVerb_eq_false [.IF, .ELSEIF] hverb (by decide),
    hasVerb_eq_false [.WHILE, .FOR] hverb (by decide), hbegin, hbare]
  simp only [Bool.and_false, Bool.false_eq_true, if_false, ite_self]
  split
  · rename_i h
    rw [hatomic h]
    rfl
  · rfl

/-- A sentence neither opens nor closes a body. -/
theorem depthChange_sentence {s : Statement} (hs : IsSentence s.tokens)
    (hread : ∀ t ∈ s.tokens, t.IsRead) : s.depthChange = 0 := by
  have hcomment := hs.part.noComment
  have hcloses : s.closes = false := by
    refine closes_eq_false hcomment (fun v hv hmem => hs.verb v hv ?_) hs.part.noConditionEnd
    have hsub : ∀ v ∈ [Verb.END, .ELSE, .ELSEIF], v ∈ bodyVerbs := by decide
    exact hsub v hmem
  rw [depthChange_of (opener?_eq_none hcomment hread hs.part.inert hs.verb), hcloses]
  rfl

/-! ### Compound statements -/

/-- The words that open a compound body are found at the end of a statement. -/
theorem opener?_begin {s : Statement} (hcomment : ∀ t ∈ s.tokens, t.isComment = false)
    (before : List Token) {words : List Token} (hs : s.tokens = before ++ words)
    (hwords : IsBegin words) :
    s.opener? = some .BEGIN := by
  rcases hwords with h | h | h
  · obtain ⟨b, rfl, hb⟩ := Token.spell_singleton.mp h
    rw [opener?_of_concat hcomment _ hs, openerAt?_begin hb]
  · obtain ⟨b, a, rfl, hb, ha⟩ := Token.spell_pair.mp h
    have hends : endsInBegin ((before ++ [b]).map Token.key).reverse = true := by
      simp [endsInBegin, Token.key_of_spells hb]
    rw [opener?_of_concat hcomment (before ++ [b]) (t := a) (by simp [hs]),
      openerAt?_atomic ha hends]
  · obtain ⟨b, n, a, rfl, hb, hn, ha⟩ := Token.spell_triple.mp h
    have hends : endsInBegin ((before ++ [b, n]).map Token.key).reverse = true := by
      simp [endsInBegin, Token.key_of_spells hb, Token.key_of_spells hn]
    rw [opener?_of_concat hcomment (before ++ [b, n]) (t := a) (by simp [hs]),
      openerAt?_atomic ha hends]

/-- No condition ends in a label. -/
theorem hasConditionEnd_label_append {label ts : List Token} (hlabel : IsLabel label)
    (hread : ∀ t ∈ label, t.IsRead) (hts : hasConditionEnd ts = false) :
    hasConditionEnd (label ++ ts) = false := by
  cases hlabel with
  | none => exact hts
  | @some l c hl hc =>
    have hword : l.spells "END" = false :=
      (hread l (by simp)).spells_eq_false_of_word hl.word (by decide)
    have hcolon : c.spells "END" = false :=
      (hread c (by simp)).spells_eq_false_of_kind (by rw [hc]; rfl) (by decide)
    refine hasConditionEnd_append ?_ hts (.inl ?_)
    · rw [hasConditionEnd_cons_cons, hword]
      rfl
    · simpa using hcolon

/-- What spells a word of the language ends a condition only if it is one of the words that do. -/
theorem isConditionKey_of_spells {t : Token} {w : String} (h : t.spells w = true) :
    isConditionKey t.key = isConditionKey w.toList := by
  rw [Token.key_of_spells h]

/-- The words that open a compound body start with `BEGIN`, and end no condition. -/
theorem exists_of_isBegin {words : List Token} (h : IsBegin words) :
    ∃ b more, words = b :: more ∧ b.spells "BEGIN" = true ∧
      hasConditionEnd (b :: more) = false := by
  rcases h with h | h | h
  · obtain ⟨b, rfl, hb⟩ := Token.spell_singleton.mp h
    exact ⟨b, [], rfl, hb, rfl⟩
  · obtain ⟨b, a, rfl, hb, ha⟩ := Token.spell_pair.mp h
    refine ⟨b, [a], rfl, hb, ?_⟩
    rw [hasConditionEnd_cons_cons, Token.spells_eq_false hb _ (by decide)]
    rfl
  · obtain ⟨b, n, a, rfl, hb, hn, ha⟩ := Token.spell_triple.mp h
    refine ⟨b, [n, a], rfl, hb, ?_⟩
    rw [hasConditionEnd_cons_cons, hasConditionEnd_cons_cons,
      Token.spells_eq_false hb _ (by decide), Token.spells_eq_false hn _ (by decide)]
    rfl

/-- The verb of what `BEGIN` comes behind is that of the head, or `BEGIN`, so it closes nothing. -/
theorem governingVerb?_begin {label head more : List Token} {b : Token} (hlabel : IsLabel label)
    (hhead : IsSentence head) (hb : b.spells "BEGIN" = true)
    (hread : ∀ t ∈ label ++ (head ++ b :: more), t.IsRead)
    (hcomment : ∀ t ∈ label ++ (head ++ b :: more), t.isComment = false) :
    ∀ v ∈ governingVerb? (label ++ (head ++ b :: more)), v ∉ [.END, .ELSE, .ELSEIF] := by
  have hbread := hread b (by simp)
  have hcolon : b.kind ≠ .colon := by
    intro hk
    have hbword := hbread.isBareWord_of_spells (by decide) hb
    rw [hk] at hbword
    exact absurd hbword (by decide)
  intro v hv
  rcases governingVerb?_label_append hlabel hread hcomment with h | h
  · rw [h] at hv
    rcases governingVerb?_append_cons (hbread.kind_ne_word hb (v := .BEGIN) (by decide)) hcolon
      fun u hu => hcomment u (List.mem_append_right _ hu) with h' | h'
    · rw [h'] at hv
      have hsub : ∀ v ∈ [Verb.END, .ELSE, .ELSEIF], v ∈ bodyVerbs := by decide
      exact fun hmem => hhead.verb v hv (hsub v hmem)
    · rw [h', Token.key_of_spells hb] at hv
      have hbegin : Verb.ofKey? "BEGIN".toList = some .BEGIN := by decide
      obtain rfl : Verb.BEGIN = v := Option.some.inj (hbegin.symm.trans hv)
      decide
  · rw [h] at hv
    exact absurd hv (by simp)

/-- A statement that opens a compound body adds one. -/
theorem depthChange_begin {s : Statement} {label head words : List Token}
    (hs : s.tokens = label ++ (head ++ words)) (hlabel : IsLabel label) (hhead : IsSentence head)
    (hwords : IsBegin words) (hread : ∀ t ∈ s.tokens, t.IsRead)
    (hcomment : ∀ t ∈ s.tokens, t.isComment = false) : s.depthChange = 1 := by
  have hopener := opener?_begin hcomment (label ++ head) (by simp [hs]) hwords
  obtain ⟨b, more, rfl, hb, hmore⟩ := exists_of_isBegin hwords
  have hverb : ∀ v ∈ s.verb?, v ∉ [.END, .ELSE, .ELSEIF] := by
    rw [verb?, hs]
    exact governingVerb?_begin hlabel hhead hb (hs ▸ hread) (hs ▸ hcomment)
  have hend : hasConditionEnd s.tokens = false := by
    rw [hs]
    refine hasConditionEnd_label_append hlabel (fun t ht => hread t (by simp [hs, ht])) ?_
    refine hasConditionEnd_append hhead.part.noConditionEnd hmore (.inr ?_)
    have hkey := isConditionKey_of_spells hb
    intro u hu
    obtain rfl : b = u := by simpa using hu
    rw [hkey]
    decide
  rw [depthChange_of hopener, closes_eq_false hcomment hverb hend]
  rfl

/-! ### Conditions -/

/-- The verb of a statement is that of the first token governed by it. -/
theorem verb?_of_governed {s : Statement} {t : Token} {ts : List Token}
    (h : governed s.tokens = t :: ts) : s.verb? = Verb.ofKey? t.key := by
  rw [verb?, governingVerb?, governing?, h]
  rfl

/-- The operands of a statement are the tokens behind the first one governed by it. -/
theorem operands_of_governed {s : Statement} {t : Token} {ts : List Token}
    (h : governed s.tokens = t :: ts) : s.operands = ts := by
  rw [operands, h]
  rfl

/-- A condition between two words does not end one. -/
theorem hasConditionEnd_guarded {t u : Token} {condition : List Token}
    (ht : t.spells "END" = false) (hcondition : hasConditionEnd condition = false)
    (hu : isConditionKey u.key = false) : hasConditionEnd (t :: condition ++ [u]) = false := by
  have hlast : hasConditionEnd (condition ++ [u]) = false :=
    hasConditionEnd_append hcondition rfl (.inr (by simpa using hu))
  show hasConditionEnd ([t] ++ (condition ++ [u])) = false
  exact hasConditionEnd_append rfl hlast (.inl (by simpa using ht))

/-- A verb opens a body with the word that its condition is in front of. -/
theorem isSome_opener?_guarded {first last : String} (hguard : (first, last) ∈ Splitter.guards)
    {s : Statement} (hcomment : ∀ t ∈ s.tokens, t.isComment = false) (before : List Token)
    {u : Token} (hs : s.tokens = before ++ [u]) (hu : u.spells last = true)
    (hverb : s.verb? = Verb.ofKey? first.toList) : s.opener?.isSome = true := by
  rw [opener?_of_concat hcomment _ hs]
  simp only [Splitter.guards, List.mem_cons, Prod.mk.injEq, List.not_mem_nil, or_false] at hguard
  rcases hguard with ⟨rfl, rfl⟩ | ⟨rfl, rfl⟩ | ⟨rfl, rfl⟩ | ⟨rfl, rfl⟩
  · rw [openerAt?_then hu (by rw [hasVerb, hverb]; decide), Option.isSome_some]
  · rw [openerAt?_then hu (by rw [hasVerb, hverb]; decide), Option.isSome_some]
  · rw [openerAt?_do hu (by rw [hasVerb, hverb]; decide), Option.isSome_some]
  · rw [openerAt?_do hu (by rw [hasVerb, hverb]; decide), Option.isSome_some]

/-- A statement with a condition adds one, unless it closes the body before. -/
theorem depthChange_guarded {first last : String} (hguard : (first, last) ∈ Splitter.guards)
    {s : Statement} {label opening : List Token} (hs : s.tokens = label ++ opening)
    (hlabel : IsLabel label)
    (hopening : IsGuarded first last opening) (hread : ∀ t ∈ s.tokens, t.IsRead)
    (hcomment : ∀ t ∈ s.tokens, t.isComment = false) :
    s.depthChange = if first = "ELSEIF" then 0 else 1 := by
  obtain ⟨ht, hcondition, hu⟩ := hopening
  rename_i t u condition
  have htread := hread t (by simp [hs])
  have hall : ∀ g ∈ Splitter.guards, (Verb.ofKey? g.1.toList).isSome = true ∧ g.1 ≠ "END" ∧
      isConditionKey g.2.toList = false := by decide
  obtain ⟨hkey, hne, hlast⟩ := hall _ hguard
  obtain ⟨v, hv⟩ := Option.isSome_iff_exists.mp hkey
  have hgoverned : governed s.tokens = t :: (condition ++ [u]) := by
    rw [hs]
    exact governed_label_append hlabel (htread.kind_ne_word ht hv) (hs ▸ hcomment)
  have hverb : s.verb? = Verb.ofKey? first.toList := by
    rw [verb?_of_governed hgoverned, Token.key_of_spells ht]
  have hend : hasConditionEnd s.tokens = false := by
    rw [hs]
    refine hasConditionEnd_label_append hlabel (fun w hw => hread w (by simp [hs, hw])) ?_
    refine hasConditionEnd_guarded (Token.spells_eq_false ht _ hne) hcondition.noConditionEnd ?_
    rw [isConditionKey_of_spells hu, hlast]
  have hopens := isSome_opener?_guarded hguard hcomment (label ++ (t :: condition)) (by simp [hs]) hu
    hverb
  rw [depthChange_of rfl, hopens]
  by_cases helseif : first = "ELSEIF"
  · have hcloses : s.closes = true := by
      rw [helseif] at hverb
      have hhas : s.hasVerb [.ELSE, .ELSEIF] = true := by rw [hasVerb, hverb]; decide
      simp [closes, closesConditional, hhas]
    rw [hcloses, if_pos helseif]
    rfl
  · -- No other verb with a condition closes anything.
    have hothers : ∀ g ∈ Splitter.guards, g.1 = "ELSEIF" ∨
        ∀ v ∈ Verb.ofKey? g.1.toList, v ∉ [.END, .ELSE, .ELSEIF] := by decide
    rw [closes_eq_false hcomment (hverb ▸ (hothers _ hguard).resolve_left helseif) hend,
      if_neg helseif]
    rfl

/-! ### Words on their own -/

/-- A word that opens a body on its own adds one, unless it closes the body before. -/
theorem depthChange_bare {w : String} (hw : w ∈ ["ELSE", "LOOP", "REPEAT"]) {s : Statement}
    {label opening : List Token} (hs : s.tokens = label ++ opening) (hlabel : IsLabel label)
    (hopening : Token.Spell [w] opening) (hread : ∀ t ∈ s.tokens, t.IsRead)
    (hcomment : ∀ t ∈ s.tokens, t.isComment = false) :
    s.depthChange = if w = "ELSE" then 0 else 1 := by
  obtain ⟨t, rfl, ht⟩ := Token.spell_singleton.mp hopening
  have htread := hread t (by simp [hs])
  have hgoverned : ∀ v, Verb.ofKey? w.toList = some v → governed s.tokens = [t] := by
    intro v hv
    rw [hs]
    exact governed_label_append hlabel (htread.kind_ne_word ht hv) (hs ▸ hcomment)
  have hverb : ∀ v, Verb.ofKey? w.toList = some v → s.verb? = some v ∧ s.operands = [] := by
    intro v hv
    rw [verb?_of_governed (hgoverned v hv), operands_of_governed (hgoverned v hv),
      Token.key_of_spells ht]
    exact ⟨hv, rfl⟩
  have hend : hasConditionEnd s.tokens = false := by
    rw [hs]
    exact hasConditionEnd_label_append hlabel (fun u hu => hread u (by simp [hs, hu])) rfl
  have hopener := opener?_of_concat hcomment _ hs
  simp only [List.mem_cons, List.not_mem_nil, or_false] at hw
  -- Nothing but the word is governed, so that it opens a body. Only `ELSE` closes one as well.
  rcases hw with rfl | rfl | rfl
  · obtain ⟨hv, ho⟩ := hverb .ELSE (by decide)
    have hcloses : s.closes = true := by simp [closes, closesConditional, hasVerb, hv]
    rw [openerAt?_of_spells ht (by decide), ho, hv] at hopener
    rw [depthChange_of hopener, hcloses]
    rfl
  · obtain ⟨hv, ho⟩ := hverb .LOOP (by decide)
    rw [openerAt?_of_spells ht (by decide), ho, hv] at hopener
    rw [depthChange_of hopener, closes_eq_false hcomment (by simp [hv]) hend]
    rfl
  · obtain ⟨hv, ho⟩ := hverb .REPEAT (by decide)
    rw [openerAt?_of_spells ht (by decide), ho, hv] at hopener
    rw [depthChange_of hopener, closes_eq_false hcomment (by simp [hv]) hend]
    rfl

/-! ### The ends of bodies -/

/-- The verb and the operands of a statement that starts with `END`. -/
theorem governed_end {s : Statement} {t : Token} {ts : List Token} (hs : s.tokens = t :: ts)
    (ht : t.spells "END" = true) (hread : ∀ u ∈ s.tokens, u.IsRead)
    (hcomment : ∀ u ∈ s.tokens, u.isComment = false) : s.verb? = some .END ∧ s.operands = ts := by
  have hgoverned : governed s.tokens = t :: ts := by
    rw [hs] at hread hcomment ⊢
    exact governed_of_not_word ((hread t (by simp)).kind_ne_word ht (v := .END) (by decide))
      hcomment
  refine ⟨?_, operands_of_governed hgoverned⟩
  rw [verb?_of_governed hgoverned, Token.key_of_spells ht]
  decide

/-- A statement that starts with `END` opens nothing, unless its last word does. -/
theorem opener?_end {s : Statement} {u : Token}
    (hcomment : ∀ t ∈ s.tokens, t.isComment = false) (before : List Token)
    (hs : s.tokens = before ++ [u]) (hverb : s.verb? = some .END)
    (hatomic : u.spells "ATOMIC" = false) (hbegin : u.spells "BEGIN" = false) :
    s.opener? = none := by
  rw [opener?_of_concat hcomment _ hs, openerAt?, hatomic, hbegin, hverb]
  simp [hasVerb, hverb, bareOpener?]

/-- A statement that closes a compound body takes one away. -/
theorem depthChange_end {s : Statement} (hs : IsEnd s.tokens) (hread : ∀ t ∈ s.tokens, t.IsRead)
    (hcomment : ∀ t ∈ s.tokens, t.isComment = false) : s.depthChange = -1 := by
  rcases hs with h | ⟨t, label, hs, ht, hlabel⟩
  · obtain ⟨t, hs, ht⟩ := Token.spell_singleton.mp h
    obtain ⟨hv, ho⟩ := governed_end hs ht hread hcomment
    have hopener := opener?_end hcomment [] hs hv
      (Token.spells_eq_false ht _ (by decide)) (Token.spells_eq_false ht _ (by decide))
    have hcloses : s.closes = true := by simp [closes, closesCompound, hasVerb, hv, ho]
    rw [depthChange_of hopener, hcloses]
    rfl
  · obtain ⟨hv, ho⟩ := governed_end hs ht hread hcomment
    have hlread := hread label (by simp [hs])
    have hopener := opener?_end hcomment [t] hs hv hlabel.notAtomic
      (hlread.spells_eq_false_of_word hlabel.word (by decide))
    -- The words of conditions are verbs, which a label is not.
    have hcondition : isConditionKey label.key = false := by
      rw [isConditionKey, isOneOf, List.any_eq_false]
      intro w hw
      have hall : ∀ w ∈ conditionWords, (Verb.ofKey? w.toList).isSome = true := by decide
      have := hlread.spells_eq_false_of_word hlabel.word (hall w hw)
      rw [Token.spells, Bool.beq_comm] at this
      rw [this]
      decide
    have hcase : (label.key != "CASE".toList) = true := by
      simpa [Token.spells] using hlabel.notCase
    have hcloses : s.closes = true := by
      simp only [closes, closesCompound, hasVerb, hv, ho]
      simp [hcondition] at hcase ⊢
      simp [hcase]
    rw [depthChange_of hopener, hcloses]
    rfl

/-- A statement that closes a conditional body takes one away. -/
theorem depthChange_conditionEnd {s : Statement} {w : String} (hw : w ∈ conditionWords)
    (hs : Token.Spell ["END", w] s.tokens) (hread : ∀ t ∈ s.tokens, t.IsRead)
    (hcomment : ∀ t ∈ s.tokens, t.isComment = false) : s.depthChange = -1 := by
  obtain ⟨t, u, hs', ht, hu⟩ := Token.spell_pair.mp hs
  obtain ⟨hv, -⟩ := governed_end hs' ht hread hcomment
  have hne : w ≠ "ATOMIC" ∧ w ≠ "BEGIN" ∧ isConditionKey w.toList = true := by
    have hall : ∀ w ∈ conditionWords,
        w ≠ "ATOMIC" ∧ w ≠ "BEGIN" ∧ isConditionKey w.toList = true := by decide
    exact hall w hw
  have hopener := opener?_end hcomment [t] hs' hv
    (Token.spells_eq_false hu _ hne.1) (Token.spells_eq_false hu _ hne.2.1)
  have hcloses : s.closes = true := by
    rw [closes, closesConditional, significant, significant_of_noComment hcomment, hs',
      hasConditionEnd_cons_cons, ht, isConditionKey_of_spells hu, hne.2.2]
    simp
  rw [depthChange_of hopener, hcloses]
  rfl

/-- The condition after which a body is repeated no more takes one away. -/
theorem depthChange_until {s : Statement} (hs : IsUntil s.tokens) (hread : ∀ t ∈ s.tokens, t.IsRead)
    (hcomment : ∀ t ∈ s.tokens, t.isComment = false) : s.depthChange = -1 := by
  generalize hs' : s.tokens = ts at hs
  obtain ⟨ht, hcondition, hcolon, hwords⟩ := hs
  rename_i t condition words
  obtain ⟨e, r, rfl, he, hr⟩ := Token.spell_pair.mp hwords
  have heword := (hread e (by simp [hs'])).isBareWord_of_spells (by decide) he
  have hv : s.verb? = none := by
    have hcomment' : ∀ u ∈ t :: (condition ++ [e, r]), u.isComment = false :=
      fun u hu => hcomment u (by simpa [hs'] using hu)
    rw [verb?, hs']
    exact Splitter.governingVerb?_until (r := r) ht hcolon heword hcomment' ⟨[], by simp⟩
  have hnone : s.opener? = none := by
    rw [opener?_of_concat hcomment (t :: condition ++ [e]) (t := r) (by simp [hs']),
      openerAt?_of_spells hr (by decide), hv, Option.bind_none, ite_self]
  have hend : hasConditionEnd s.tokens = true := by
    rw [hs']
    refine hasConditionEnd_append_right (t :: condition) ?_
    rw [hasConditionEnd_cons_cons, he, isConditionKey_of_spells hr]
    rfl
  have hcloses : s.closes = true := by
    rw [closes, closesConditional, significant, significant_of_noComment hcomment, hend]
    simp
  rw [depthChange_of hnone, hcloses]
  rfl

end Statement

end SqlScript
