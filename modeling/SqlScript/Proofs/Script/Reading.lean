import SqlScript.Proofs.Script.Grammar
import SqlScript.Proofs.Token.Word

namespace SqlScript

/-!
# Reading the statements of the grammar

How the splitter reads each form of statement of the grammar: what it passes over, and where it ends
the statement.

* `governingVerb?_of_prefix` and `governed_label_append` — the verb of a statement of which a part
  was read, and of one with a label;
* `Splitter.split_inert` and `Splitter.split_word` — what is passed over;
* `Splitter.split_opening` and `Splitter.split_semicolon` — what ends a statement;
* `Splitter.split_sentence`, `Splitter.split_begin`, `Splitter.split_guarded`, `Splitter.split_bare`
  and `Splitter.split_until` — each form of statement is read as it is, whatever follows.
-/

/-! ### Governing tokens -/

/-- Where there are no comments, none are left out. -/
theorem significant_of_noComment {ts : List Token} (h : ∀ t ∈ ts, t.isComment = false) :
    Token.significant ts = ts :=
  List.filter_eq_self.mpr fun t ht => by simp [h t ht]

/-- Without comments, the governed tokens are those behind the label. -/
theorem governed_of_noComment {ts : List Token} (h : ∀ t ∈ ts, t.isComment = false) :
    governed ts = (splitLabel ts).2 := by
  rw [governed, significant_of_noComment h]

/-- Where no label comes first, the first token governs. -/
theorem governed_of_not_label {t : Token} {ts : List Token}
    (ht : ∀ c ∈ ts.head?, ¬ (t.kind = .word ∧ c.kind = .colon))
    (h : ∀ u ∈ t :: ts, u.isComment = false) : governed (t :: ts) = t :: ts := by
  rw [governed_of_noComment h]
  unfold splitLabel
  split
  · rename_i heq
    obtain ⟨rfl, rfl⟩ := List.cons_eq_cons.mp heq
    rw [if_neg (ht _ (by simp))]
  · rfl

/-- What does not start with a word has no label. -/
theorem governed_of_not_word {t : Token} {ts : List Token} (ht : t.kind ≠ .word)
    (h : ∀ u ∈ t :: ts, u.isComment = false) : governed (t :: ts) = t :: ts :=
  governed_of_not_label (fun _ _ hc => ht hc.1) h

/-- What has no colon behind its first token has no label. -/
theorem governed_of_not_colon {t : Token} {ts : List Token} (ht : ∀ c ∈ ts.head?, c.kind ≠ .colon)
    (h : ∀ u ∈ t :: ts, u.isComment = false) : governed (t :: ts) = t :: ts :=
  governed_of_not_label (fun c hc hlabel => ht c hc hlabel.2) h

/-- Words that are no verbs govern nothing, so the verb of the first tokens of a statement is the
    one of the statement, if they have one. -/
theorem governingVerb?_of_prefix {p ts : List Token} (hread : ∀ t ∈ ts, t.IsRead)
    (hcomment : ∀ t ∈ ts, t.isComment = false) (hp : p <+: ts) :
    governingVerb? p = governingVerb? ts ∨ governingVerb? p = none := by
  have hp' : ∀ t ∈ p, t.isComment = false := fun t ht => hcomment t (hp.subset ht)
  rw [governingVerb?, governingVerb?, governing?, governing?, governed_of_noComment hp',
    governed_of_noComment hcomment]
  obtain ⟨q, rfl⟩ := hp
  match p with
  | [] => exact .inr rfl
  | [a] | [a, b] =>
    -- The label of the statement is what governs its first tokens.
    by_cases hlabel : a.kind = .word
    · exact .inr ((hread a (by simp)).ofKey?_eq_none hlabel)
    · left
      congr 1
      unfold splitLabel
      split
      · rename_i heq
        simp at heq
      · split
        · rename_i heq
          simp only [List.cons_append, List.cons.injEq] at heq
          rw [if_neg fun h => hlabel (heq.1 ▸ h.1)]
          simp [heq.1]
        · simp
  | a :: b :: c :: more =>
    left
    simp only [List.cons_append, splitLabel]
    split <;> rfl

/-- A label changes nothing about the verb, unless there was a label already. -/
theorem governingVerb?_label_append {label ts : List Token} (hlabel : IsLabel label)
    (hread : ∀ t ∈ label ++ ts, t.IsRead) (hcomment : ∀ t ∈ label ++ ts, t.isComment = false) :
    governingVerb? (label ++ ts) = governingVerb? ts ∨ governingVerb? (label ++ ts) = none := by
  cases hlabel with
  | none => exact .inl rfl
  | @some l c hl hc =>
    have hts : ∀ t ∈ ts, t.isComment = false := fun t ht => hcomment t (by simp [ht])
    have hnone : ∀ t ∈ [l, c] ++ ts, t.kind = .word → Verb.ofKey? t.key = none :=
      fun t ht => (hread t ht).ofKey?_eq_none
    rw [governingVerb?, governingVerb?, governing?, governing?, governed_of_noComment hcomment,
      governed_of_noComment hts]
    match ts with
    | [] => exact .inr (hnone l (by simp) hl.word)
    | t :: more =>
      have hfirst : (splitLabel ([l, c] ++ t :: more)).2 = t :: more := by
        simp [splitLabel, hl.word, hc]
      rw [hfirst]
      by_cases hword : t.kind = .word
      · exact .inr (hnone t (by simp) hword)
      · left
        rw [← governed_of_noComment hts, governed_of_not_word hword hts]

/-- What follows the first tokens of a statement governs it only where there is nothing but a label
    in front. -/
theorem governingVerb?_append_cons {head : List Token} {t : Token} {ts : List Token}
    (hword : t.kind ≠ .word) (hcolon : t.kind ≠ .colon)
    (hcomment : ∀ u ∈ head ++ t :: ts, u.isComment = false) :
    governingVerb? (head ++ t :: ts) = governingVerb? head ∨
      governingVerb? (head ++ t :: ts) = Verb.ofKey? t.key := by
  have hhead : ∀ u ∈ head, u.isComment = false := fun u hu => hcomment u (by simp [hu])
  -- A label takes two tokens: the cases are how many of these are in the head.
  match head with
  | [] =>
    right
    rw [List.nil_append] at hcomment ⊢
    rw [governingVerb?, governing?, governed_of_not_word hword hcomment]
    rfl
  | [a] =>
    left
    rw [List.singleton_append] at hcomment ⊢
    rw [governingVerb?, governingVerb?, governing?, governing?,
      governed_of_not_colon (by simpa using hcolon) hcomment,
      governed_of_not_colon (by simp) hhead]
    rfl
  | [a, b] =>
    rw [governingVerb?, governingVerb?, governing?, governing?, governed_of_noComment hcomment,
      governed_of_noComment hhead]
    by_cases hlabel : a.kind = .word ∧ b.kind = .colon
    · right
      simp [splitLabel, hlabel]
    · left
      simp [splitLabel, hlabel]
  | a :: b :: c :: more =>
    left
    rw [governingVerb?, governingVerb?, governing?, governing?, governed_of_noComment hcomment,
      governed_of_noComment hhead]
    simp only [List.cons_append, splitLabel]
    split <;> rfl

/-- Behind a label, or without one, a verb governs. -/
theorem governed_label_append {label : List Token} (hlabel : IsLabel label) {t : Token}
    {ts : List Token} (ht : t.kind ≠ .word)
    (hcomment : ∀ u ∈ label ++ t :: ts, u.isComment = false) :
    governed (label ++ t :: ts) = t :: ts := by
  cases hlabel with
  | none => exact governed_of_not_word ht hcomment
  | some hl hc =>
    rw [governed_of_noComment hcomment]
    simp [splitLabel, hl.word, hc]

/-! ### Words that open a body -/

/-- A statement ends at a word that opens a conditional body only where such a word governs it. -/
theorem opensBody_eq_false {ts : List Token} {t : Token}
    (hcomment : ∀ u ∈ ts ++ [t], u.isComment = false)
    (hverb : ∀ v ∈ governingVerb? (ts ++ [t]), v ∉ bodyVerbs) : opensBody (ts ++ [t]) t = false := by
  have hnone : ∀ verbs : List Verb, (∀ v ∈ verbs, v ∈ bodyVerbs) →
      (governingVerb? (ts ++ [t])).any (fun v => verbs.contains v) = false := by
    intro verbs hsub
    cases hv : governingVerb? (ts ++ [t]) with
    | none => rfl
    | some v =>
      rw [Option.any_some, ← Bool.not_eq_true, List.contains_iff_mem]
      exact fun hmem => hverb v hv (hsub v hmem)
  have halone : isOneOf ["ELSE", "LOOP", "REPEAT"] t.key = true →
      (governed (ts ++ [t])).length ≠ 1 := by
    intro hone hlength
    -- The word is the only governed token, and so the governing one.
    have hsuffix : governed (ts ++ [t]) <:+ ts ++ [t] := by
      rw [governed_of_noComment hcomment]
      exact splitLabel_suffix _
    have hgoverned : governed (ts ++ [t]) = [t] := by
      have htail : [t] <:+ ts ++ [t] := List.suffix_append ..
      exact (List.suffix_of_suffix_length_le hsuffix htail (by simp [hlength])).eq_of_length
        (by simp [hlength])
    have hkey : governingVerb? (ts ++ [t]) = Verb.ofKey? t.key := by
      rw [governingVerb?, governing?, hgoverned]
      rfl
    rw [hkey] at hverb
    simp only [isOneOf, List.any_cons, List.any_nil, Bool.or_false, Bool.or_eq_true,
      beq_iff_eq] at hone
    rcases hone with h | h | h
    · exact hverb .ELSE (by rw [← h]; decide) (by decide)
    · exact hverb .LOOP (by rw [← h]; decide) (by decide)
    · exact hverb .REPEAT (by rw [← h]; decide) (by decide)
  unfold opensBody
  simp only [hnone [.IF, .ELSEIF] (by decide), hnone [.WHILE, .FOR] (by decide), Bool.and_false,
    Bool.false_or, Bool.and_eq_false_imp, beq_eq_false_iff_ne]
  exact halone

/-- What spells no word of a body opens none. -/
theorem opensBody_eq_false_of_forall {t : Token}
    (h : ∀ w ∈ ["THEN", "DO", "ELSE", "LOOP", "REPEAT"], t.spells w = false) (ts : List Token) :
    opensBody ts t = false := by
  have hthen := h "THEN" (by simp)
  have hdo := h "DO" (by simp)
  have hother : isOneOf ["ELSE", "LOOP", "REPEAT"] t.key = false := by
    rw [isOneOf, List.any_eq_false]
    intro w hw
    have := h w (by simp at hw ⊢; tauto)
    rw [Token.spells, Bool.beq_comm] at this
    rw [this]
    decide
  simp [opensBody, hthen, hdo, hother]

/-- A word of no body opens none. -/
theorem opensBody_eq_false_of_spells {t : Token} {w : String} (h : t.spells w = true)
    (hw : w ∉ ["THEN", "DO", "ELSE", "LOOP", "REPEAT"]) (ts : List Token) :
    opensBody ts t = false :=
  opensBody_eq_false_of_forall
    (fun _ hw' => Token.spells_eq_false h _ fun heq => hw (heq ▸ hw')) ts

/-! ### The words behind `BEGIN` -/

/-- A word that comes next is the one that ends a compound opening, or shows that there is none. -/
theorem atomicLength_cons {t : Token} (ht : t.isComment = false) (rest : List Token) :
    (t.spells "ATOMIC" = true → atomicLength (t :: rest) = 1) ∧
      (t.spells "ATOMIC" = false → t.spells "NOT" = false → atomicLength (t :: rest) = 0) := by
  unfold atomicLength
  simp only [List.take_succ_cons, List.zipIdx_cons, List.filter_cons, ht, Bool.not_false, if_true]
  split <;> simp_all

/-- Two tokens that come next are a `NOT` and an `ATOMIC`, or show that there is none. -/
theorem atomicLength_cons_cons {t u : Token} (ht : t.isComment = false) (hu : u.isComment = false)
    (hatomic : t.spells "ATOMIC" = false) (rest : List Token) :
    atomicLength (t :: u :: rest) = if t.spells "NOT" && u.spells "ATOMIC" then 2 else 0 := by
  unfold atomicLength
  simp [List.take_succ_cons, List.zipIdx_cons, ht, hu, hatomic]

/-- No words are spelled by no tokens. -/
theorem Token.spell_nil {ts : List Token} : Token.Spell [] ts ↔ ts = [] := by simp [Token.Spell]

/-- The first one of some tokens spells the first one of the words that they spell. -/
theorem Token.spell_cons {w : String} {words : List String} {ts : List Token} :
    Token.Spell (w :: words) ts
      ↔ ∃ t rest, ts = t :: rest ∧ t.spells w = true ∧ Token.Spell words rest := by
  cases ts with
  | nil => simp [Token.Spell]
  | cons t ts => simp [Token.Spell, Token.spells]

/-- One word is spelled by one token. -/
theorem Token.spell_singleton {w : String} {ts : List Token} :
    Token.Spell [w] ts ↔ ∃ t, ts = [t] ∧ t.spells w = true := by
  simp [spell_cons, spell_nil]

/-- Two words are spelled by two tokens. -/
theorem Token.spell_pair {w w' : String} {ts : List Token} :
    Token.Spell [w, w'] ts ↔ ∃ t t', ts = [t, t'] ∧ t.spells w = true ∧ t'.spells w' = true := by
  grind [spell_cons, spell_singleton]

/-- Three words are spelled by three tokens. -/
theorem Token.spell_triple {w w' w'' : String} {ts : List Token} :
    Token.Spell [w, w', w''] ts ↔ ∃ t t' t'', ts = [t, t', t''] ∧ t.spells w = true ∧
      t'.spells w' = true ∧ t''.spells w'' = true := by
  grind [spell_cons, spell_pair]

namespace Token

/-- Whether the token is no parenthesis. -/
def IsLevel (t : Token) : Prop := t.kind ≠ .openParen ∧ t.kind ≠ .closeParen

/-- A word of the language is no parenthesis. -/
theorem isLevel_of_isBareWord {t : Token} (h : t.kind.isBareWord = true) : t.IsLevel := by
  constructor <;> intro hk <;> rw [hk] at h <;> exact absurd h (by decide)

/-- What is asked of a token that is no parenthesis, and of those behind it. -/
theorem isInert_cons {stops : List String} {parens cases : Nat} {t : Token} (ht : t.IsLevel)
    (ts : List Token) :
    isInert stops parens cases (t :: ts)
      = if 0 < parens then isInert stops parens cases ts
        else if t.spells "CASE" then isInert stops 0 (cases + 1) ts
        else if t.spells "END" then 0 < cases && isInert stops 0 (cases - 1) ts
        else
          t.kind != .semicolon && !t.spells "BEGIN" && (0 < cases || !isOneOf stops t.key) &&
            isInert stops 0 cases ts := by
  rw [isInert]
  split
  · rename_i hk
    exact absurd hk ht.1
  · rename_i hk
    exact absurd hk ht.2
  · rfl

end Token

namespace Splitter

/-! ### Tokens that are passed over -/

/-- A statement of which some tokens were read, with all parentheses and expressions closed. -/
def reading (ts : List Token) : Splitter := ⟨ts, 0, 0, none⟩

/-- At the start nothing was read. -/
theorem start_eq_reading : start = reading [] := rfl

/-- A word that means nothing for the end of the statement. -/
theorem readWord_of_inert {cur : List Token} {t : Token} {cases : Nat} (following : List Token)
    (hcase : t.spells "CASE" = false) (hend : t.spells "END" = false)
    (hbegin : t.spells "BEGIN" = false) (hopens : cases = 0 → opensBody cur t = false) :
    readWord ⟨cur, 0, cases, none⟩ t following = ⟨cur, 0, cases, none⟩ := by
  unfold readWord
  simp only [hcase, hend, hbegin, Bool.false_eq_true, if_false, Bool.false_and]
  by_cases h0 : 0 < cases
  · rw [if_pos h0]
  · rw [if_neg h0, hopens (by omega)]
    rfl

/-- What is passed over is added to the statement. -/
theorem split_of_awaited_none {s : Splitter} {t : Token} {rest : List Token}
    (hend : s.endsAt t = false) (hawaited : (s.add t rest).awaited = none) :
    s.split (t :: rest) = (s.add t rest).split rest := by
  rw [split, hend]
  simp [hawaited]

/-- What a token that is no parenthesis changes. -/
theorem add_of_isLevel {s : Splitter} {t : Token} (ht : t.IsLevel) (following : List Token)
    (hs : s.awaited = none) :
    s.add t following
      = if s.parens = 0 ∧ t.kind.isBareWord then
          { s with current := s.current ++ [t] }.readWord t following
        else { s with current := s.current ++ [t] } := by
  obtain ⟨cur, parens, cases, awaited⟩ := s
  obtain rfl : awaited = none := hs
  unfold add
  split
  · rename_i hk
    exact absurd hk ht.1
  · rename_i hk
    exact absurd hk ht.2
  · rfl

/-- One of the parts of statements is added to the statement, and what is open after it is closed by
    the others. -/
theorem add_of_isInert {stops : List String} {t : Token} {ts cur : List Token} {parens cases : Nat}
    (hread : t.IsRead) (hinert : Token.isInert stops parens cases (t :: ts) = true)
    (hopens : isOneOf stops t.key = false → opensBody (cur ++ [t]) t = false)
    (following : List Token) :
    ∃ parens' cases', Token.isInert stops parens' cases' ts = true ∧
      endsAt ⟨cur, parens, cases, none⟩ t = false ∧
      add ⟨cur, parens, cases, none⟩ t following = ⟨cur ++ [t], parens', cases', none⟩ := by
  by_cases hopen : t.kind = .openParen
  · rw [Token.isInert, hopen] at hinert
    exact ⟨_, _, hinert, by simp [endsAt, hopen], by simp [add, hopen]⟩
  by_cases hclose : t.kind = .closeParen
  · rw [Token.isInert, hclose, Bool.and_eq_true] at hinert
    exact ⟨_, _, hinert.2, by simp [endsAt, hclose], by simp [add, hclose]⟩
  rw [Token.isInert_cons ⟨hopen, hclose⟩] at hinert
  rw [add_of_isLevel ⟨hopen, hclose⟩ following rfl]
  -- Between parentheses everything else is passed over.
  by_cases hparens : 0 < parens
  · rw [if_pos hparens] at hinert
    refine ⟨_, _, hinert, ?_, if_neg fun h => ?_⟩
    · simp only [endsAt, Bool.and_eq_false_imp, beq_eq_false_iff_ne]
      omega
    · have : parens = 0 := h.1
      omega
  obtain rfl : parens = 0 := by omega
  rw [if_neg hparens] at hinert
  -- Outside of them `CASE` and `END` are counted, and no other word may open anything.
  have hends : t.kind.isBareWord = true → endsAt ⟨cur, 0, cases, none⟩ t = false := by
    intro hword
    have hne : t.kind ≠ .semicolon := by
      intro hk
      rw [hk] at hword
      exact absurd hword (by decide)
    simp [endsAt, hne]
  by_cases hcase : t.spells "CASE" = true
  · have hword := hread.isBareWord_of_spells (by decide) hcase
    rw [if_pos hcase] at hinert
    exact ⟨_, _, hinert, hends hword, by rw [if_pos ⟨rfl, hword⟩, readWord, if_pos hcase]⟩
  rw [if_neg hcase] at hinert
  by_cases hend : t.spells "END" = true
  · have hword := hread.isBareWord_of_spells (by decide) hend
    rw [if_pos hend, Bool.and_eq_true] at hinert
    refine ⟨_, _, hinert.2, hends hword, ?_⟩
    rw [if_pos ⟨rfl, hword⟩, readWord, if_neg hcase, if_pos (by rw [hend]; simpa using hinert.1)]
  rw [if_neg hend] at hinert
  simp only [Bool.and_eq_true, bne_iff_ne, ne_eq, Bool.not_eq_true', Bool.or_eq_true,
    decide_eq_true_eq] at hinert
  obtain ⟨⟨⟨hsemicolon, hbegin⟩, hstop⟩, hrest⟩ := hinert
  refine ⟨_, _, hrest, by simp [endsAt, hsemicolon], ?_⟩
  split
  · exact readWord_of_inert _ (by simpa using hcase) (by simpa using hend) hbegin
      fun h0 => hopens (hstop.resolve_left (Nat.not_lt.mpr (Nat.le_of_eq h0)))
  · rfl

/-- The parts of statements are passed over, unless one of their words opens a body. -/
theorem split_inert (stops : List String) {ts : List Token} {cur : List Token} {parens cases : Nat}
    (hread : ∀ t ∈ ts, t.IsRead) (hinert : Token.isInert stops parens cases ts = true)
    (hopens : ∀ before t after, ts = before ++ t :: after → isOneOf stops t.key = false →
      opensBody (cur ++ (before ++ [t])) t = false) (rest : List Token) :
    split ⟨cur, parens, cases, none⟩ (ts ++ rest) = (reading (cur ++ ts)).split rest := by
  induction ts generalizing cur parens cases with
  | nil =>
    simp only [Token.isInert, Bool.and_eq_true, beq_iff_eq] at hinert
    obtain ⟨rfl, rfl⟩ := hinert
    rw [List.nil_append, List.append_nil]
    rfl
  | cons t ts ih =>
    have hopens' : ∀ before u after, ts = before ++ u :: after → isOneOf stops u.key = false →
        opensBody (cur ++ [t] ++ (before ++ [u])) u = false := by
      intro before u after hts hstop
      have := hopens (t :: before) u after (by rw [hts]; rfl) hstop
      simpa using this
    obtain ⟨_, _, hrest, hend, hadd⟩ := add_of_isInert (hread t (by simp)) hinert
      (hopens [] t ts rfl) (ts ++ rest)
    rw [List.cons_append, split_of_awaited_none hend (by rw [hadd]), hadd,
      ih (fun u hu => hread u (by simp [hu])) hrest hopens', List.append_assoc]
    rfl

/-! ### The end of a statement -/

/-- A statement whose tokens were all read is what was read. -/
theorem finish_reading (s : Statement) : (reading s.tokens).finish = [s] := by
  simp [finish, reading, s.nonempty]

/-- A semicolon ends the statement. -/
theorem split_semicolon (s : Statement) {semicolon : Token} (h : semicolon.kind = .semicolon)
    (rest : List Token) :
    (reading s.tokens).split (semicolon :: rest) = s :: start.split rest := by
  have hend : (reading s.tokens).endsAt semicolon = true := by simp [endsAt, h, reading]
  rw [split, if_pos hend, finish_reading]
  rfl

/-- One more word of a statement that is being read is asked for what it means. -/
theorem add_reading {cur : List Token} {t : Token} (ht : t.kind.isBareWord = true)
    (following : List Token) :
    (reading cur).add t following = (reading (cur ++ [t])).readWord t following := by
  unfold add reading
  cases hk : t.kind <;> simp_all [Kind.isBareWord]

/-- A word does not end a statement without being part of it. -/
theorem endsAt_reading {cur : List Token} {t : Token} (ht : t.kind.isBareWord = true) :
    (reading cur).endsAt t = false := by
  cases hk : t.kind <;> simp_all [Kind.isBareWord, endsAt]

/-- A word that opens no body is passed over. -/
theorem split_word {cur : List Token} {t : Token} (ht : t.kind.isBareWord = true)
    (hcase : t.spells "CASE" = false) (hbegin : t.spells "BEGIN" = false)
    (hopens : opensBody (cur ++ [t]) t = false) (rest : List Token) :
    (reading cur).split (t :: rest) = (reading (cur ++ [t])).split rest := by
  have hadd : (reading cur).add t rest = reading (cur ++ [t]) := by
    rw [add_reading ht, readWord]
    simp [hcase, hbegin, reading, hopens]
  rw [split_of_awaited_none (endsAt_reading ht) (by rw [hadd]; rfl), hadd]

/-- A word that opens a conditional body ends the statement. -/
theorem split_opening {s : Statement} {cur : List Token} {t : Token} (hs : s.tokens = cur ++ [t])
    (ht : t.kind.isBareWord = true) (hcase : t.spells "CASE" = false)
    (hbegin : t.spells "BEGIN" = false) (hopens : opensBody (cur ++ [t]) t = true)
    (rest : List Token) :
    (reading cur).split (t :: rest) = s :: start.split rest := by
  have hadd : (reading cur).add t rest = { reading s.tokens with awaited := some 0 } := by
    rw [add_reading ht, readWord, hs]
    simp [hcase, hbegin, reading, hopens]
  have hfinish : ({ reading s.tokens with awaited := some 0 } : Splitter).finish = [s] :=
    finish_reading s
  rw [split, endsAt_reading ht, hadd]
  simp only [Bool.false_eq_true, if_false, if_true, hfinish]
  rfl

/-! ### Labels and sentences -/

/-- A label is passed over. -/
theorem split_label {label : List Token} (hlabel : IsLabel label)
    (hread : ∀ t ∈ label, t.IsRead) (rest : List Token) :
    start.split (label ++ rest) = (reading label).split rest := by
  cases hlabel with
  | none => rfl
  | @some l c hl hc =>
    have hverb : Verb.ofKey? l.key = none := (hread l (by simp)).ofKey?_eq_none hl.word
    have hbegin : l.spells "BEGIN" = false :=
      (hread l (by simp)).spells_eq_false_of_word hl.word (by decide)
    have hcomment : l.isComment = false := by simp [Token.isComment, hl.word]
    have hword : (reading []).split (l :: ([c] ++ rest)) = (reading [l]).split ([c] ++ rest) := by
      refine split_word (by rw [hl.word]; rfl) hl.notCase hbegin ?_ _
      refine opensBody_eq_false (by simpa using hcomment) fun v hv => ?_
      have hgoverning : governingVerb? ([] ++ [l]) = Verb.ofKey? l.key := by
        rw [governingVerb?, governing?, governed_of_noComment (by simpa using hcomment)]
        rfl
      rw [hgoverning, hverb] at hv
      exact absurd hv (by simp)
    have hcolon : (reading [l]).split ([c] ++ rest) = (reading [l, c]).split rest := by
      have hadd : (reading [l]).add c rest = reading [l, c] := by
        simp [add, hc, reading, Kind.isBareWord]
      rw [List.singleton_append,
        split_of_awaited_none (by simp [endsAt, hc]) (by rw [hadd]; rfl), hadd]
    exact hword.trans hcolon

/-- A sentence is passed over, behind a label or without one. -/
theorem split_head {label head : List Token} (hlabel : IsLabel label)
    (hhead : Token.IsPart [] head) (hverb : ∀ v ∈ governingVerb? head, v ∉ bodyVerbs)
    (hread : ∀ t ∈ label ++ head, t.IsRead) (hcomment : ∀ t ∈ label ++ head, t.isComment = false)
    (rest : List Token) :
    start.split (label ++ (head ++ rest)) = (reading (label ++ head)).split rest := by
  have hl : ∀ t ∈ label, t.IsRead := fun t ht => hread t (by simp [ht])
  have hh : ∀ t ∈ head, t.IsRead := fun t ht => hread t (by simp [ht])
  rw [split_label hlabel hl]
  refine split_inert [] hh hhead.inert (fun before t after hsplit _ => ?_) rest
  -- The tokens up to any place are governed by the verb of the head, or by none.
  have hfront : label ++ (before ++ [t]) <+: label ++ head :=
    ⟨after, by rw [hsplit]; simp⟩
  rw [← List.append_assoc] at hfront ⊢
  refine opensBody_eq_false (fun u hu => hcomment u (hfront.subset hu)) fun v hv => ?_
  rcases governingVerb?_of_prefix hread hcomment hfront with h | h
  · rw [h] at hv
    rcases governingVerb?_label_append hlabel hread hcomment with h' | h'
    · exact hverb v (h' ▸ hv)
    · rw [h'] at hv
      exact absurd hv (by simp)
  · rw [h] at hv
    exact absurd hv (by simp)

/-- A sentence is read as a statement. -/
theorem split_sentence {s : Statement} (hs : IsSentence s.tokens)
    (hread : ∀ t ∈ s.tokens, t.IsRead) {semicolon : Token} (h : semicolon.kind = .semicolon)
    (rest : List Token) :
    start.split (s.tokens ++ semicolon :: rest) = s :: start.split rest := by
  rw [← split_semicolon s h]
  exact split_head .none hs.part hs.verb hread hs.part.noComment _

/-! ### Compound statements -/

/-- A statement of which some tokens were read, and of which some are still to come whatever they
    are. -/
def awaiting (ts : List Token) (count : Nat) : Splitter := ⟨ts, 0, 0, some count⟩

/-- Behind `BEGIN` as many tokens are waited for as the look-ahead takes. -/
theorem add_begin (cur : List Token) {t : Token} (hread : t.IsRead)
    (ht : t.spells "BEGIN" = true) (following : List Token) :
    (reading cur).add t following = awaiting (cur ++ [t]) (atomicLength following) := by
  rw [add_reading (hread.isBareWord_of_spells (by decide) ht), readWord]
  simp [Token.spells_eq_false ht "CASE" (by decide), ht, reading, awaiting]

/-- One of the words that come after `BEGIN` is waited for no more. -/
theorem add_awaiting {cur : List Token} {count : Nat} {t : Token} (hread : t.IsRead) {w : String}
    (ht : t.spells w = true) (hw : isReserved w = true)
    (hne : w ∉ ["CASE", "END", "BEGIN", "THEN", "DO", "ELSE", "LOOP", "REPEAT"])
    (following : List Token) :
    (awaiting cur count).add t following = awaiting (cur ++ [t]) (count - 1) := by
  have hother : ∀ w' ∈ ["CASE", "END", "BEGIN", "THEN", "DO", "ELSE", "LOOP", "REPEAT"],
      t.spells w' = false :=
    fun w' hw' => Token.spells_eq_false ht _ fun heq => hne (heq ▸ hw')
  have hopens := opensBody_eq_false_of_spells ht (fun h => hne (by simp at h ⊢; tauto))
    (cur ++ [t])
  have hword := hread.isBareWord_of_spells hw ht
  have hread : readWord (awaiting (cur ++ [t]) (count - 1)) t following
      = awaiting (cur ++ [t]) (count - 1) := by
    unfold readWord
    simp only [awaiting, hother "CASE" (by simp), hother "END" (by simp),
      hother "BEGIN" (by simp), hopens, Bool.false_and, Bool.false_eq_true, if_false,
      Nat.lt_irrefl]
  unfold add
  cases hk : t.kind <;> simp_all [Kind.isBareWord, awaiting]

/-- The last token that is waited for ends the statement. -/
theorem split_of_add_eq_awaiting {s : Statement} {sp : Splitter} {t : Token} {rest : List Token}
    (ht : t.kind.isBareWord = true) (h : sp.add t rest = awaiting s.tokens 0) :
    sp.split (t :: rest) = s :: start.split rest := by
  have hend : sp.endsAt t = false := by
    cases hk : t.kind <;> simp_all [Kind.isBareWord, endsAt]
  have hfinish : (awaiting s.tokens 0).finish = [s] := finish_reading s
  rw [split, hend, h]
  simp only [Bool.false_eq_true, if_false, hfinish]
  rw [if_pos (show (awaiting s.tokens 0).awaited = some 0 from rfl)]
  rfl

/-- Another token that is waited for does not. -/
theorem split_of_add_eq_awaiting_succ {cur : List Token} {count : Nat} {sp : Splitter} {t : Token}
    {rest : List Token} (ht : t.kind.isBareWord = true)
    (h : sp.add t rest = awaiting cur (count + 1)) :
    sp.split (t :: rest) = (awaiting cur (count + 1)).split rest := by
  have hend : sp.endsAt t = false := by
    cases hk : t.kind <;> simp_all [Kind.isBareWord, endsAt]
  rw [split, hend, h]
  simp [awaiting]

/-- The words that open a compound body end the statement. -/
theorem split_begin {s : Statement} {cur words : List Token} (hs : s.tokens = cur ++ words)
    (hwords : IsBegin words) (hread : ∀ t ∈ words, t.IsRead) {rest : List Token}
    (hrest : atomicLength rest = 0) :
    (reading cur).split (words ++ rest) = s :: start.split rest := by
  have hword : ∀ t ∈ words, ∀ w : String, isReserved w = true → t.spells w = true →
      t.kind.isBareWord = true := fun t ht w hw h => (hread t ht).isBareWord_of_spells hw h
  -- Of the words, all but the last one leave the statement waiting for those behind it.
  rcases hwords with h | h | h
  · obtain ⟨b, rfl, hb⟩ := Token.spell_singleton.mp h
    refine split_of_add_eq_awaiting (hword b (by simp) _ (by decide) hb) ?_
    rw [add_begin cur (hread b (by simp)) hb, hs]
    exact congrArg _ hrest
  · obtain ⟨b, a, rfl, hb, ha⟩ := Token.spell_pair.mp h
    have haword := hword a (by simp) _ (by decide) ha
    have hlength : atomicLength ([a] ++ rest) = 1 :=
      (atomicLength_cons (Token.not_isComment_of_isBareWord haword) rest).1 ha
    have hadd := add_begin cur (hread b (by simp)) hb ([a] ++ rest)
    rw [hlength] at hadd
    rw [List.cons_append,
      split_of_add_eq_awaiting_succ (hword b (by simp) _ (by decide) hb) hadd]
    refine split_of_add_eq_awaiting haword ?_
    rw [add_awaiting (hread a (by simp)) ha (by decide) (by decide), hs]
    simp
  · obtain ⟨b, n, a, rfl, hb, hn, ha⟩ := Token.spell_triple.mp h
    have hnword := hword n (by simp) _ (by decide) hn
    have haword := hword a (by simp) _ (by decide) ha
    have hlength : atomicLength ([n, a] ++ rest) = 2 := by
      rw [List.cons_append, List.singleton_append, atomicLength_cons_cons
        (Token.not_isComment_of_isBareWord hnword) (Token.not_isComment_of_isBareWord haword)
        (Token.spells_eq_false hn _ (by decide)), hn, ha]
      rfl
    have hadd := add_begin cur (hread b (by simp)) hb ([n, a] ++ rest)
    rw [hlength] at hadd
    rw [List.cons_append,
      split_of_add_eq_awaiting_succ (hword b (by simp) _ (by decide) hb) hadd,
      List.cons_append, split_of_add_eq_awaiting_succ hnword
        (add_awaiting (hread n (by simp)) hn (by decide) (by decide) _)]
    refine split_of_add_eq_awaiting haword ?_
    rw [add_awaiting (hread a (by simp)) ha (by decide) (by decide), hs]
    simp

/-! ### Conditions -/

/-- The words between which a condition stands. -/
def guards : List (String × String) :=
  [("IF", "THEN"), ("ELSEIF", "THEN"), ("WHILE", "DO"), ("FOR", "DO")]

/-- In a statement with a condition, a word opens a body when it is the one behind the condition,
    and no other one does. -/
theorem opensBody_guarded {first last : String} (hguard : (first, last) ∈ guards) {ts : List Token}
    {t u : Token} {between : List Token} (ht : t.spells first = true)
    (hgoverned : governed ts = t :: (between ++ [u])) :
    opensBody ts u = u.spells last := by
  have hverb : governingVerb? ts = Verb.ofKey? first.toList := by
    rw [governingVerb?, governing?, hgoverned, ← Token.key_of_spells ht]
    rfl
  have hlength : ((governed ts).length == 1) = false := by simp [hgoverned]
  simp only [guards, List.mem_cons, Prod.mk.injEq, List.not_mem_nil, or_false] at hguard
  unfold opensBody
  rcases hguard with ⟨rfl, rfl⟩ | ⟨rfl, rfl⟩ | ⟨rfl, rfl⟩ | ⟨rfl, rfl⟩
  all_goals
    simp only [hverb, hlength, Bool.and_false, Bool.or_false]
  · rw [show Verb.ofKey? "IF".toList = some .IF by decide]
    simp
  · rw [show Verb.ofKey? "ELSEIF".toList = some .ELSEIF by decide]
    simp
  · rw [show Verb.ofKey? "WHILE".toList = some .WHILE by decide]
    simp
  · rw [show Verb.ofKey? "FOR".toList = some .FOR by decide]
    simp

/-- A condition between two words is read as a statement, behind a label or without one. -/
theorem split_guarded {first last : String} (hguard : (first, last) ∈ guards) {s : Statement}
    {label opening : List Token} (hs : s.tokens = label ++ opening) (hlabel : IsLabel label)
    (hopening : IsGuarded first last opening) (hread : ∀ t ∈ s.tokens, t.IsRead)
    (hcomment : ∀ t ∈ s.tokens, t.isComment = false) (rest : List Token) :
    start.split (s.tokens ++ rest) = s :: start.split rest := by
  obtain ⟨ht, hcondition, hu⟩ := hopening
  rename_i t u condition
  have hmem : ∀ w ∈ label ++ (t :: condition ++ [u]), w ∈ s.tokens := fun w hw => by rwa [hs]
  have htread := hread t (hmem t (by simp))
  have huread := hread u (hmem u (by simp))
  have hwords : isReserved first = true ∧ isReserved last = true ∧
      first ∉ ["CASE", "BEGIN", "THEN", "DO", "ELSE", "LOOP", "REPEAT"] ∧
      last ∉ ["CASE", "BEGIN"] ∧ (Verb.ofKey? first.toList).isSome = true := by
    have hall : ∀ g ∈ guards, isReserved g.1 = true ∧ isReserved g.2 = true ∧
        g.1 ∉ ["CASE", "BEGIN", "THEN", "DO", "ELSE", "LOOP", "REPEAT"] ∧
        g.2 ∉ ["CASE", "BEGIN"] ∧ (Verb.ofKey? g.1.toList).isSome = true := by decide
    exact hall _ hguard
  obtain ⟨hfirst, hlast, hfirst', hlast', hverb⟩ := hwords
  obtain ⟨v, hv⟩ := Option.isSome_iff_exists.mp hverb
  have htword : t.kind.isBareWord = true := htread.isBareWord_of_spells hfirst ht
  have hgoverned : ∀ between w after, condition ++ [u] = between ++ w :: after →
      governed (label ++ (t :: (between ++ [w]))) = t :: (between ++ [w]) := by
    intro between w after hsplit
    refine governed_label_append hlabel (htread.kind_ne_word ht hv) fun x hx => hcomment x ?_
    refine hmem x ?_
    rw [List.cons_append, hsplit]
    rcases List.mem_append.mp hx with hx | hx
    · exact List.mem_append_left _ hx
    · refine List.mem_append_right _ ?_
      simp at hx ⊢
      tauto
  rw [hs, List.append_assoc, split_label hlabel (fun w hw => hread w (hmem w (by simp [hw]))),
    List.cons_append, List.cons_append]
  -- First the word in front of the condition, then the condition, then the word behind it.
  have hother : ∀ w ∈ ["CASE", "BEGIN"], t.spells w = false := fun w hw =>
    Token.spells_eq_false ht _ fun heq =>
      hfirst' (by simp at hw; rcases hw with rfl | rfl <;> simp [heq])
  have hother' : ∀ w ∈ ["CASE", "BEGIN"], u.spells w = false := fun w hw =>
    Token.spells_eq_false hu _ fun heq => hlast' (heq ▸ hw)
  rw [split_word htword (hother _ (by simp)) (hother _ (by simp))
    (opensBody_eq_false_of_spells ht (fun h => hfirst' (by simp at h ⊢; tauto)) _)]
  have hpass : (reading (label ++ [t])).split (condition ++ (u :: rest))
      = (reading (label ++ [t] ++ condition)).split (u :: rest) := by
    refine split_inert [last] (fun w hw => hread w (hmem w (by simp [hw])))
      hcondition.inert (fun before w after hsplit hstop => ?_) _
    rw [show label ++ [t] ++ (before ++ [w]) = label ++ (t :: (before ++ [w])) by simp,
      opensBody_guarded hguard ht (hgoverned before w (after ++ [u]) (by simp [hsplit]))]
    by_contra h
    rw [Bool.not_eq_false] at h
    simp [isOneOf, Token.key_of_spells h] at hstop
  rw [List.append_assoc, List.singleton_append, hpass]
  refine split_opening (by simp [hs]) (huread.isBareWord_of_spells hlast hu)
    (hother' _ (by simp)) (hother' _ (by simp)) ?_ rest
  rw [show label ++ [t] ++ condition ++ [u] = label ++ (t :: (condition ++ [u])) by simp,
    opensBody_guarded hguard ht (hgoverned condition u [] rfl), hu]

/-! ### Words on their own -/

/-- A word that opens a body on its own is read as a statement, behind a label or without one. -/
theorem split_bare {w : String} (hw : w ∈ ["ELSE", "LOOP", "REPEAT"]) {s : Statement}
    {label opening : List Token} (hs : s.tokens = label ++ opening) (hlabel : IsLabel label)
    (hopening : Token.Spell [w] opening) (hread : ∀ t ∈ s.tokens, t.IsRead)
    (hcomment : ∀ t ∈ s.tokens, t.isComment = false) (rest : List Token) :
    start.split (s.tokens ++ rest) = s :: start.split rest := by
  obtain ⟨t, rfl, ht⟩ := Token.spell_singleton.mp hopening
  have hmem : ∀ u ∈ label ++ [t], u ∈ s.tokens := fun u hu => by rwa [hs]
  have htread := hread t (hmem t (by simp))
  have hwords : isReserved w = true ∧ w ≠ "CASE" ∧ w ≠ "BEGIN" ∧
      (Verb.ofKey? w.toList).isSome = true := by
    have hall : ∀ w ∈ ["ELSE", "LOOP", "REPEAT"], isReserved w = true ∧ w ≠ "CASE" ∧
        w ≠ "BEGIN" ∧ (Verb.ofKey? w.toList).isSome = true := by decide
    exact hall w hw
  obtain ⟨hreserved, hcase, hbegin, hverb⟩ := hwords
  obtain ⟨v, hv⟩ := Option.isSome_iff_exists.mp hverb
  have hgoverned : governed (label ++ [t]) = [t] :=
    governed_label_append hlabel (htread.kind_ne_word ht hv) fun u hu => hcomment u (hmem u hu)
  have hopens : opensBody (label ++ [t]) t = true := by
    have hone : isOneOf ["ELSE", "LOOP", "REPEAT"] t.key = true := by
      rw [isOneOf, List.any_eq_true]
      exact ⟨w, hw, by simp [Token.key_of_spells ht]⟩
    simp [opensBody, hone, hgoverned]
  rw [hs, List.append_assoc, split_label hlabel fun u hu => hread u (hmem u (by simp [hu]))]
  exact split_opening hs (htread.isBareWord_of_spells hreserved ht)
    (Token.spells_eq_false ht _ hcase) (Token.spells_eq_false ht _ hbegin) hopens rest

/-! ### The ends of bodies -/

/-- A verb that opens no body, and what a label or a word of the language behind it means. -/
theorem split_pair {s : Statement} {t u : Token} (hs : s.tokens = [t, u])
    (hread : ∀ w ∈ s.tokens, w.IsRead) (ht : t.spells "END" = true)
    (hu : u.kind.isBareWord = true) (hcase : u.spells "CASE" = false)
    (hbegin : u.spells "BEGIN" = false) {semicolon : Token} (h : semicolon.kind = .semicolon)
    (rest : List Token) :
    start.split (s.tokens ++ semicolon :: rest) = s :: start.split rest := by
  have htread := hread t (by simp [hs])
  have htword := htread.isBareWord_of_spells (by decide) ht
  have hcomment : ∀ w ∈ [t, u], w.isComment = false := by
    intro w hw
    simp only [List.mem_cons, List.not_mem_nil, or_false] at hw
    rcases hw with rfl | rfl
    · exact Token.not_isComment_of_isBareWord htword
    · exact Token.not_isComment_of_isBareWord hu
  have hgoverned : governed [t, u] = [t, u] :=
    governed_of_not_word (htread.kind_ne_word ht (v := .END) (by decide)) hcomment
  have hverb : governingVerb? [t, u] = some .END := by
    rw [governingVerb?, governing?, hgoverned, List.head?_cons, Option.bind_some,
      Token.key_of_spells ht]
    decide
  have hopens : opensBody ([t] ++ [u]) u = false := by
    rw [List.singleton_append]
    simp [opensBody, hverb, hgoverned]
  rw [← split_semicolon s h, hs, List.cons_append, start_eq_reading,
    split_word htword (Token.spells_eq_false ht _ (by decide))
      (Token.spells_eq_false ht _ (by decide)) (opensBody_eq_false_of_spells ht (by decide) _),
    List.singleton_append]
  exact split_word hu hcase hbegin hopens _

/-- Up to any place, the condition after which a body is repeated no more is governed by a word that
    is no verb. -/
theorem governingVerb?_until {t e r : Token} {condition p : List Token}
    (ht : t.spells "UNTIL" = true) (hcolon : ∀ c ∈ condition.head?, c.kind ≠ .colon)
    (he : e.kind.isBareWord = true) (hcomment : ∀ u ∈ t :: p, u.isComment = false)
    (hp : t :: p <+: t :: condition ++ [e, r]) : governingVerb? (t :: p) = none := by
  have hcolon' : ∀ c ∈ p.head?, c.kind ≠ .colon := by
    intro c hc
    obtain ⟨q, hq⟩ := List.cons_prefix_cons.mp hp |>.2
    cases p with
    | nil => simp at hc
    | cons a p =>
      obtain rfl : a = c := by simpa using hc
      cases condition with
      | nil =>
        obtain ⟨rfl, -⟩ := List.cons_eq_cons.mp hq
        intro h
        rw [h] at he
        exact absurd he (by decide)
      | cons b condition =>
        obtain ⟨rfl, -⟩ := List.cons_eq_cons.mp hq
        exact hcolon a (by simp)
  rw [governingVerb?, governing?, governed_of_not_colon hcolon' hcomment, List.head?_cons,
    Option.bind_some, Token.key_of_spells ht]
  decide

/-- The condition after which a body is repeated no more is read as a statement. -/
theorem split_until {s : Statement} (hs : IsUntil s.tokens) (hread : ∀ t ∈ s.tokens, t.IsRead)
    (hcomment : ∀ t ∈ s.tokens, t.isComment = false) {semicolon : Token}
    (h : semicolon.kind = .semicolon) (rest : List Token) :
    start.split (s.tokens ++ semicolon :: rest) = s :: start.split rest := by
  generalize hs' : s.tokens = ts at hs
  obtain ⟨ht, hcondition, hcolon, hwords⟩ := hs
  rename_i t condition words
  obtain ⟨e, r, rfl, he, hr⟩ := Token.spell_pair.mp hwords
  rw [hs'] at hread hcomment
  have heword := (hread e (by simp)).isBareWord_of_spells (by decide) he
  have hrword := (hread r (by simp)).isBareWord_of_spells (by decide) hr
  have hnone : ∀ p : List Token, t :: p <+: t :: condition ++ [e, r] →
      governingVerb? (t :: p) = none :=
    fun p hp => governingVerb?_until ht hcolon heword (fun u hu => hcomment u (hp.subset hu)) hp
  have hopens : ∀ (p : List Token) (u : Token), t :: (p ++ [u]) <+: t :: condition ++ [e, r] →
      opensBody (t :: (p ++ [u])) u = false := by
    intro p u hp
    show opensBody (t :: p ++ [u]) u = false
    refine opensBody_eq_false (fun w hw => hcomment w (hp.subset hw)) fun v hv => ?_
    rw [List.cons_append, hnone _ hp] at hv
    exact absurd hv (by simp)
  -- The word in front of the condition, the condition and the two words behind it open nothing.
  have hfirst : start.split (t :: (condition ++ (e :: r :: semicolon :: rest)))
      = (reading [t]).split (condition ++ (e :: r :: semicolon :: rest)) :=
    split_word ((hread t (by simp)).isBareWord_of_spells (by decide) ht)
      (Token.spells_eq_false ht _ (by decide)) (Token.spells_eq_false ht _ (by decide))
      (opensBody_eq_false_of_spells ht (by decide) _) _
  have hpass : (reading [t]).split (condition ++ (e :: r :: semicolon :: rest))
      = (reading (t :: condition)).split (e :: r :: semicolon :: rest) := by
    refine split_inert [] (fun w hw => hread w (by simp [hw])) hcondition.inert ?_ _
    intro before w after hsplit _
    exact hopens before w ⟨after ++ [e, r], by simp [hsplit]⟩
  have hlast : (reading (t :: condition ++ [e])).split (r :: semicolon :: rest)
      = (reading s.tokens).split (semicolon :: rest) := by
    rw [split_word hrword (Token.spells_eq_false hr _ (by decide))
      (Token.spells_eq_false hr _ (by decide)), hs']
    · simp
    · have := hopens (condition ++ [e]) r ⟨[], by simp⟩
      simpa using this
  rw [← split_semicolon s h, ← hlast, ← split_word heword (Token.spells_eq_false he _ (by decide))
    (Token.spells_eq_false he _ (by decide)) (opensBody_eq_false_of_spells he (by decide) _), ← hpass,
    ← hfirst]
  simp

end Splitter

end SqlScript
