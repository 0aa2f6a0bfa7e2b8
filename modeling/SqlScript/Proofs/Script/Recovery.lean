import SqlScript.Proofs.Script.Depth
import SqlScript.Script.Basic

namespace SqlScript

/-!
# Recovering the structure of scripts

A script of the grammar is divided into the statements that it is made of, and its nodes are its
groups, however deep the bodies in it are.

* `IsConstruct.noComment` — no form of statement has comments in it;
* `IsScript.split` — the statements of a script are those of its nodes, whatever follows;
* `IsScript.gather` — the nodes of a script are groups, and in a body they leave the depth as it is;
* `Script.ofText_of_isScript` — the two together, for a text.
-/

/-! ### Comments -/

/-- What spells words of the language has no comment. -/
theorem Token.Spell.noComment {words : List String} {ts : List Token} (h : Token.Spell words ts)
    (hwords : ∀ w ∈ words, isReserved w = true) (hread : ∀ t ∈ ts, t.IsRead) :
    ∀ t ∈ ts, t.isComment = false := by
  intro t ht
  have hkey : t.key ∈ words.map String.toList := by
    rw [← h]
    exact List.mem_map_of_mem ht
  obtain ⟨w, hw, heq⟩ := List.mem_map.mp hkey
  refine Token.not_isComment_of_isBareWord ((hread t ht).isBareWord_of_spells (hwords w hw) ?_)
  simp [Token.spells, heq]

/-- A label has no comment. -/
theorem IsLabel.noComment {label : List Token} (h : IsLabel label) :
    ∀ t ∈ label, t.isComment = false := by
  cases h with
  | none => simp
  | some hl hc =>
    intro t ht
    simp only [List.mem_cons, List.not_mem_nil, or_false] at ht
    rcases ht with rfl | rfl
    · simp [Token.isComment, hl.word]
    · simp [Token.isComment, hc]

/-- A condition between its words has no comment. -/
theorem IsGuarded.noComment {first last : String} {ts : List Token} (h : IsGuarded first last ts)
    (hfirst : isReserved first = true) (hlast : isReserved last = true)
    (hread : ∀ t ∈ ts, t.IsRead) : ∀ t ∈ ts, t.isComment = false := by
  obtain ⟨ht, hcondition, hu⟩ := h
  intro w hw
  rcases List.mem_append.mp hw with hw | hw
  · rcases List.mem_cons.mp hw with rfl | hw
    · exact Token.not_isComment_of_isBareWord
        ((hread w (by simp)).isBareWord_of_spells hfirst ht)
    · exact hcondition.noComment w hw
  · obtain rfl := List.mem_singleton.mp hw
    exact Token.not_isComment_of_isBareWord ((hread w (by simp)).isBareWord_of_spells hlast hu)

/-- A `BEGIN`, with what comes behind it, has no comment. -/
theorem IsBegin.noComment {ts : List Token} (h : IsBegin ts) (hread : ∀ t ∈ ts, t.IsRead) :
    ∀ t ∈ ts, t.isComment = false := by
  rcases h with h | h | h <;> exact h.noComment (by decide) hread

/-- An `END`, with what comes behind it, has no comment. -/
theorem IsEnd.noComment {ts : List Token} (h : IsEnd ts) (hread : ∀ t ∈ ts, t.IsRead) :
    ∀ t ∈ ts, t.isComment = false := by
  rcases h with h | ⟨t, label, rfl, ht, hlabel⟩
  · exact h.noComment (by decide) hread
  · intro u hu
    simp only [List.mem_cons, List.not_mem_nil, or_false] at hu
    rcases hu with rfl | rfl
    · exact Token.not_isComment_of_isBareWord
        ((hread u (by simp)).isBareWord_of_spells (by decide) ht)
    · simp [Token.isComment, hlabel.word]

/-- The `UNTIL` of a loop, with its condition, has no comment. -/
theorem IsUntil.noComment {ts : List Token} (h : IsUntil ts) (hread : ∀ t ∈ ts, t.IsRead) :
    ∀ t ∈ ts, t.isComment = false := by
  obtain ⟨ht, hcondition, -, hwords⟩ := h
  intro w hw
  rcases List.mem_append.mp hw with hw | hw
  · rcases List.mem_cons.mp hw with rfl | hw
    · exact Token.not_isComment_of_isBareWord
        ((hread w (by simp)).isBareWord_of_spells (by decide) ht)
    · exact hcondition.noComment w hw
  · exact hwords.noComment (by decide) (fun u hu => hread u (by simp [hu])) w hw

/-! ### Statements of constructs -/

/-- What a statement that opens a body is read as: itself, whatever follows but the words that a
    `BEGIN` takes with it; and what it adds to the depth. -/
def Statement.OpensBody (s : Statement) (change : Int) : Prop :=
  (∀ rest, atomicLength rest = 0 →
    Splitter.start.split (s.tokens ++ rest) = s :: Splitter.start.split rest) ∧
  s.depthChange = change

/-- What a statement that closes a body is read as: itself, when a semicolon follows; and what it
    adds to the depth. -/
def Statement.ClosesBody (s : Statement) : Prop :=
  (∀ (semicolon : Token) (rest : List Token), semicolon.kind = .semicolon →
    Splitter.start.split (s.tokens ++ semicolon :: rest) = s :: Splitter.start.split rest) ∧
  s.depthChange = -1

/-- Two parts without comments make one without comments. -/
theorem noComment_append {ts us : List Token} (hts : ∀ t ∈ ts, t.isComment = false)
    (hus : ∀ t ∈ us, t.isComment = false) : ∀ t ∈ ts ++ us, t.isComment = false := by
  intro t ht
  rcases List.mem_append.mp ht with ht | ht
  · exact hts t ht
  · exact hus t ht

/-- A condition between two words opens a body. -/
theorem Statement.opensBody_guarded {first last : String}
    (hguard : (first, last) ∈ Splitter.guards) {s : Statement} {label opening : List Token}
    (hs : s.tokens = label ++ opening) (hlabel : IsLabel label)
    (hopening : IsGuarded first last opening) (hread : ∀ t ∈ s.tokens, t.IsRead) :
    s.OpensBody (if first = "ELSEIF" then 0 else 1) := by
  have hwords : isReserved first = true ∧ isReserved last = true := by
    have hall : ∀ g ∈ Splitter.guards, isReserved g.1 = true ∧ isReserved g.2 = true := by decide
    exact hall _ hguard
  have hcomment : ∀ t ∈ s.tokens, t.isComment = false := by
    rw [hs] at hread ⊢
    exact noComment_append hlabel.noComment
      (hopening.noComment hwords.1 hwords.2 fun u hu => hread u (by simp [hu]))
  exact ⟨fun rest _ => Splitter.split_guarded hguard hs hlabel hopening hread hcomment rest,
    depthChange_guarded hguard hs hlabel hopening hread hcomment⟩

/-- A word on its own opens a body. -/
theorem Statement.opensBody_bare {w : String} (hw : w ∈ ["ELSE", "LOOP", "REPEAT"]) {s : Statement}
    {label opening : List Token} (hs : s.tokens = label ++ opening) (hlabel : IsLabel label)
    (hopening : Token.Spell [w] opening) (hread : ∀ t ∈ s.tokens, t.IsRead) :
    s.OpensBody (if w = "ELSE" then 0 else 1) := by
  have hreserved : ∀ w ∈ ["ELSE", "LOOP", "REPEAT"], isReserved w = true := by decide
  have hcomment : ∀ t ∈ s.tokens, t.isComment = false := by
    rw [hs] at hread ⊢
    refine noComment_append hlabel.noComment
      (hopening.noComment ?_ fun u hu => hread u (by simp [hu]))
    simpa using hreserved w hw
  exact ⟨fun rest _ => Splitter.split_bare hw hs hlabel hopening hread hcomment rest,
    depthChange_bare hw hs hlabel hopening hread hcomment⟩

/-- A sentence with `BEGIN` behind it opens a body. -/
theorem Statement.opensBody_begin {s : Statement} {label head words : List Token}
    (hs : s.tokens = label ++ (head ++ words)) (hlabel : IsLabel label) (hhead : IsSentence head)
    (hwords : IsBegin words) (hread : ∀ t ∈ s.tokens, t.IsRead) : s.OpensBody 1 := by
  have hwread : ∀ t ∈ words, t.IsRead := fun t ht => hread t (by simp [hs, ht])
  have hcomment := noComment_append hlabel.noComment hhead.part.noComment
  constructor
  · intro rest hrest
    rw [hs, List.append_assoc, List.append_assoc,
      Splitter.split_head hlabel hhead.part hhead.verb
        (fun t ht => hread t (by simp [hs] at ht ⊢; tauto)) hcomment]
    exact Splitter.split_begin (by simp [hs]) hwords hwread hrest
  · refine depthChange_begin hs hlabel hhead hwords hread ?_
    rw [hs, ← List.append_assoc]
    exact noComment_append hcomment (hwords.noComment hwread)

/-- The statement that opens the first body of a construct adds one. -/
theorem IsConstruct.opensBody_first {closing : List Token} {others : List (List Token)}
    {s : Statement} (h : IsConstruct s.tokens others closing) (hread : ∀ t ∈ s.tokens, t.IsRead) :
    s.OpensBody 1 := by
  generalize hs : s.tokens = opening at h
  cases h with
  | compound hlabel hhead hwords =>
    exact Statement.opensBody_begin hs hlabel hhead hwords hread
  | conditional hlabel hopening =>
    exact Statement.opensBody_guarded (by decide) hs hlabel hopening hread
  | whileLoop hlabel hopening =>
    exact Statement.opensBody_guarded (by decide) hs hlabel hopening hread
  | forLoop hlabel hopening =>
    exact Statement.opensBody_guarded (by decide) hs hlabel hopening hread
  | endless hlabel hopening => exact Statement.opensBody_bare (by decide) hs hlabel hopening hread
  | repeated hlabel hopening => exact Statement.opensBody_bare (by decide) hs hlabel hopening hread

/-- A statement that opens another body of a construct adds nothing. -/
theorem IsConstruct.opensBody_other {opening closing : List Token} {others : List (List Token)}
    (h : IsConstruct opening others closing) {s : Statement} (hs : s.tokens ∈ others)
    (hread : ∀ t ∈ s.tokens, t.IsRead) : s.OpensBody 0 := by
  cases h with
  | conditional _ _ helseifs helses =>
    rcases List.mem_append.mp hs with hs | hs
    · have hnone : s.tokens = [] ++ s.tokens := rfl
      exact Statement.opensBody_guarded (by decide) hnone .none (helseifs _ hs) hread
    · rcases helses with rfl | ⟨b, rfl, hb⟩
      · simp at hs
      · have heq : s.tokens = [] ++ b := List.mem_singleton.mp hs
        exact Statement.opensBody_bare (by decide) heq .none hb hread
  | _ => simp at hs

/-- The words that close a conditional body are read as a statement. -/
theorem Statement.ClosesBody.of_conditionEnd {s : Statement} {w : String} (hw : w ∈ conditionWords)
    (hs : Token.Spell ["END", w] s.tokens) (hread : ∀ t ∈ s.tokens, t.IsRead) : s.ClosesBody := by
  have hwords : ∀ w ∈ conditionWords, isReserved w = true ∧ w ≠ "CASE" ∧ w ≠ "BEGIN" := by decide
  obtain ⟨hreserved, hcase, hbegin⟩ := hwords w hw
  obtain ⟨t, u, hs', ht, hu⟩ := Token.spell_pair.mp hs
  refine ⟨fun semicolon rest hsemicolon => ?_, Statement.depthChange_conditionEnd hw hs hread
    (hs.noComment (by simpa using ⟨by decide, hreserved⟩) hread)⟩
  exact Splitter.split_pair hs' hread ht
    ((hread u (by simp [hs'])).isBareWord_of_spells hreserved hu)
    (Token.spells_eq_false hu _ hcase) (Token.spells_eq_false hu _ hbegin) hsemicolon rest

/-- The words that close a compound body are read as a statement. -/
theorem Statement.ClosesBody.of_isEnd {s : Statement} (hs : IsEnd s.tokens)
    (hread : ∀ t ∈ s.tokens, t.IsRead) : s.ClosesBody := by
  refine ⟨fun semicolon rest hsemicolon => ?_,
    Statement.depthChange_end hs hread (hs.noComment hread)⟩
  rcases hs with h | ⟨t, label, hs, ht, hlabel⟩
  · obtain ⟨t, hs, ht⟩ := Token.spell_singleton.mp h
    rw [← Splitter.split_semicolon s hsemicolon, hs]
    exact Splitter.split_word ((hread t (by simp [hs])).isBareWord_of_spells (by decide) ht)
      (Token.spells_eq_false ht _ (by decide)) (Token.spells_eq_false ht _ (by decide))
      (opensBody_eq_false_of_spells ht (by decide) _) _
  · exact Splitter.split_pair hs hread ht (by rw [hlabel.word]; rfl) hlabel.notCase
      ((hread label (by simp [hs])).spells_eq_false_of_word hlabel.word (by decide)) hsemicolon rest

/-- The condition after which a body is repeated no more is read as a statement. -/
theorem Statement.ClosesBody.of_isUntil {s : Statement} (hs : IsUntil s.tokens)
    (hread : ∀ t ∈ s.tokens, t.IsRead) : s.ClosesBody :=
  have hcomment := hs.noComment hread
  ⟨fun _ rest hsemicolon => Splitter.split_until hs hread hcomment hsemicolon rest,
    Statement.depthChange_until hs hread hcomment⟩

/-- The statement that closes the last body of a construct takes one away. -/
theorem IsConstruct.closesBody {opening : List Token} {others : List (List Token)} {s : Statement}
    (h : IsConstruct opening others s.tokens) (hread : ∀ t ∈ s.tokens, t.IsRead) :
    s.ClosesBody := by
  generalize hs : s.tokens = closing at h
  cases h with
  | compound _ _ _ hclosing => exact .of_isEnd (hs ▸ hclosing) hread
  | conditional _ _ _ _ hclosing =>
    exact .of_conditionEnd (w := "IF") (by decide) (hs ▸ hclosing) hread
  | whileLoop _ _ hclosing =>
    exact .of_conditionEnd (w := "WHILE") (by decide) (hs ▸ hclosing) hread
  | forLoop _ _ hclosing =>
    exact .of_conditionEnd (w := "FOR") (by decide) (hs ▸ hclosing) hread
  | endless _ _ hclosing =>
    exact .of_conditionEnd (w := "LOOP") (by decide) (hs ▸ hclosing) hread
  | repeated _ _ hclosing => exact .of_isUntil (hs ▸ hclosing) hread

/-! ### The words behind `BEGIN` -/

/-- No first word of a statement, with the one behind it, is taken for part of a `BEGIN`. -/
theorem atomicLength_eq_zero {t u : Token} (ht : t.isComment = false) (hu : u.isComment = false)
    (hatomic : t.spells "ATOMIC" = false)
    (hnot : t.spells "NOT" = true → u.spells "ATOMIC" = false) (rest : List Token) :
    atomicLength (t :: u :: rest) = 0 := by
  rw [atomicLength_cons_cons ht hu hatomic, if_neg]
  rw [Bool.and_eq_true]
  rintro ⟨h, h'⟩
  rw [hnot h] at h'
  exact absurd h' (by decide)

/-- A word of the language that is neither `ATOMIC` nor `NOT` is not. -/
theorem atomicLength_of_spells {t : Token} {w : String} (ht : t.spells w = true) (hread : t.IsRead)
    (hw : isReserved w = true) (hatomic : w ≠ "ATOMIC") (hnot : w ≠ "NOT") (rest : List Token) :
    atomicLength (t :: rest) = 0 :=
  (atomicLength_cons (Token.not_isComment_of_isBareWord (hread.isBareWord_of_spells hw ht)) rest).2
    (Token.spells_eq_false ht _ hatomic) (Token.spells_eq_false ht _ hnot)

/-- A sentence starts with no word that belongs to a `BEGIN`, whatever token follows. -/
theorem IsSentence.atomicLength_append {head : List Token} (h : IsSentence head) {t : Token}
    (ht : t.isComment = false) (hatomic : t.spells "ATOMIC" = false)
    (hnot : head = [] → t.spells "NOT" = false) (rest : List Token) :
    atomicLength (head ++ t :: rest) = 0 := by
  match head, h with
  | [], _ => exact (atomicLength_cons ht rest).2 hatomic (hnot rfl)
  | [a], h =>
    exact atomicLength_eq_zero (h.part.noComment a (by simp)) ht (h.notAtomic a (by simp))
      (fun _ => hatomic) rest
  | a :: b :: more, h =>
    exact atomicLength_eq_zero (h.part.noComment a (by simp)) (h.part.noComment b (by simp))
      (h.notAtomic a (by simp)) (h.notNotAtomic a b more rfl) _

/-- A label starts with no word that belongs to a `BEGIN`, and without one the statement does. -/
theorem IsLabel.atomicLength_append {label ts : List Token} (h : IsLabel label)
    (hread : ∀ t ∈ label, t.IsRead) (hts : atomicLength ts = 0) :
    atomicLength (label ++ ts) = 0 := by
  have hcomment := h.noComment
  cases h with
  | none => exact hts
  | @some l c hl hc =>
    exact atomicLength_eq_zero (hcomment l (by simp)) (hcomment c (by simp)) hl.notAtomic
      (fun _ => (hread c (by simp)).spells_eq_false_of_kind (by rw [hc]; rfl) (by decide)) ts

/-- No construct starts with a word that belongs to a `BEGIN`. -/
theorem IsConstruct.atomicLength_append {opening closing : List Token} {others : List (List Token)}
    (h : IsConstruct opening others closing) (hread : ∀ t ∈ opening, t.IsRead)
    (rest : List Token) : atomicLength (opening ++ rest) = 0 := by
  have hspelled : ∀ {w : String} {t : Token}, t ∈ opening → t.spells w = true →
      isReserved w = true → w ≠ "ATOMIC" → w ≠ "NOT" → ∀ more, atomicLength (t :: more) = 0 :=
    fun ht hs hw ha hn => atomicLength_of_spells hs (hread _ ht) hw ha hn
  cases h with
  | @compound label head words _ hlabel hhead hwords _ =>
    rw [List.append_assoc]
    refine hlabel.atomicLength_append (fun t ht => hread t (by simp [ht])) ?_
    obtain ⟨b, more, rfl, hb⟩ : ∃ b more, words = b :: more ∧ b.spells "BEGIN" = true := by
      rcases hwords with h | h | h <;> obtain ⟨b, more, rfl, hb, -⟩ := Token.spell_cons.mp h <;>
        exact ⟨b, more, rfl, hb⟩
    have hbword := (hread b (by simp)).isBareWord_of_spells (by decide) hb
    rw [List.append_assoc, List.cons_append]
    exact hhead.atomicLength_append (Token.not_isComment_of_isBareWord hbword)
      (Token.spells_eq_false hb _ (by decide)) (fun _ => Token.spells_eq_false hb _ (by decide)) _
  | conditional hlabel hopening | whileLoop hlabel hopening | forLoop hlabel hopening =>
    rw [List.append_assoc]
    refine hlabel.atomicLength_append (fun t ht => hread t (by simp [ht])) ?_
    obtain ⟨ht, -, -⟩ := hopening
    exact hspelled (by simp) ht (by decide) (by decide) (by decide) _
  | endless hlabel hopening | repeated hlabel hopening =>
    rw [List.append_assoc]
    refine hlabel.atomicLength_append (fun t ht => hread t (by simp [ht])) ?_
    obtain ⟨t, _, rfl, ht, -⟩ := Token.spell_cons.mp hopening
    exact hspelled (by simp) ht (by decide) (by decide) (by decide) _

/-- No other body, and no end of one, starts with a word that belongs to a `BEGIN`. -/
theorem IsConstruct.atomicLength_after {opening closing : List Token} {others : List (List Token)}
    (h : IsConstruct opening others closing) :
    (∀ b ∈ others, (∀ t ∈ b, t.IsRead) → ∀ rest, SqlScript.atomicLength (b ++ rest) = 0) ∧
      ((∀ t ∈ closing, t.IsRead) → ∀ rest, SqlScript.atomicLength (closing ++ rest) = 0) := by
  have hspelled : ∀ {words : List String} {w : String} {ts : List Token},
      Token.Spell (w :: words) ts → isReserved w = true → w ≠ "ATOMIC" → w ≠ "NOT" →
      (∀ t ∈ ts, t.IsRead) → ∀ rest, SqlScript.atomicLength (ts ++ rest) = 0 := by
    intro words w ts hts hw hatomic hnot hread rest
    obtain ⟨t, more, rfl, ht, -⟩ := Token.spell_cons.mp hts
    exact atomicLength_of_spells ht (hread t (by simp)) hw hatomic hnot _
  cases h with
  | compound _ _ _ hclosing =>
    refine ⟨by simp, fun hread rest => ?_⟩
    rcases hclosing with hts | ⟨t, label, rfl, ht, -⟩
    · exact hspelled hts (by decide) (by decide) (by decide) hread rest
    · exact atomicLength_of_spells ht (hread t (by simp)) (by decide) (by decide) (by decide) _
  | conditional _ _ helseifs helses hclosing =>
    refine ⟨fun b hb hread rest => ?_, hspelled hclosing (by decide) (by decide) (by decide)⟩
    rcases List.mem_append.mp hb with hb | hb
    · obtain ⟨ht, -, -⟩ := helseifs b hb
      exact atomicLength_of_spells ht (hread _ (by simp)) (by decide) (by decide) (by decide) _
    · rcases helses with rfl | ⟨_, rfl, helse⟩
      · simp at hb
      · obtain rfl := List.mem_singleton.mp hb
        exact hspelled helse (by decide) (by decide) (by decide) hread rest
  | whileLoop _ _ hclosing | forLoop _ _ hclosing | endless _ _ hclosing =>
    exact ⟨by simp, hspelled hclosing (by decide) (by decide) (by decide)⟩
  | repeated _ _ hclosing =>
    refine ⟨by simp, fun hread rest => ?_⟩
    obtain ⟨ht, -, -, -⟩ := hclosing
    exact atomicLength_of_spells ht (hread _ (by simp)) (by decide) (by decide) (by decide) _

/-- No script starts with a word that belongs to a `BEGIN`. -/
theorem IsScript.atomicLength_append {ts : List Token} {nodes : List (List Statement)}
    (h : IsScript ts nodes) (hread : ∀ t ∈ ts, t.IsRead) {rest : List Token}
    (hrest : SqlScript.atomicLength rest = 0) : SqlScript.atomicLength (ts ++ rest) = 0 := by
  cases h with
  | nil => exact hrest
  | @simple s semicolon more _ hs hsemicolon =>
    rw [List.append_assoc, List.cons_append]
    have hkind : semicolon.kind.isBareWord = false := by rw [hsemicolon]; rfl
    have hother : ∀ w : String, isReserved w = true → semicolon.spells w = false := fun w hw =>
      (hread semicolon (by simp)).spells_eq_false_of_kind hkind hw
    exact hs.atomicLength_append (by simp [Token.isComment, hsemicolon])
      (hother "ATOMIC" (by decide)) (fun _ => hother "NOT" (by decide)) _
  | @construct first others closing semicolon more _ hconstruct =>
    rw [Body.allTokens, List.append_assoc, List.append_assoc]
    exact hconstruct.atomicLength_append
      (fun t ht => hread t (by simp [Body.allTokens, ht])) _

/-! ### Statements -/

/-- The tokens of the parts of a construct are among its tokens. -/
theorem isRead_of_construct {first : Body} {others : List Body} {closing rest : List Token}
    (h : ∀ t ∈ first.allTokens ++ (others.flatMap Body.allTokens ++ (closing ++ rest)), t.IsRead) :
    (∀ b ∈ first :: others, (∀ t ∈ b.allTokens, t.IsRead) ∧ (∀ t ∈ b.opening.tokens, t.IsRead) ∧
      ∀ t ∈ b.tokens, t.IsRead) ∧
    (∀ t ∈ closing, t.IsRead) ∧ ∀ t ∈ rest, t.IsRead := by
  refine ⟨fun b hb => ?_, fun t ht => h t (by simp [ht]), fun t ht => h t (by simp [ht])⟩
  have hall : ∀ t ∈ b.allTokens, t.IsRead := by
    intro t ht
    refine h t ?_
    rcases List.mem_cons.mp hb with rfl | hb
    · exact List.mem_append_left _ ht
    · exact List.mem_append_right _ (List.mem_append_left _ (List.mem_flatMap.mpr ⟨b, hb, ht⟩))
  exact ⟨hall, fun t ht => hall t (by simp [Body.allTokens, ht]),
    fun t ht => hall t (by simp [Body.allTokens, ht])⟩

/-- The bodies of a construct are read one after the other, up to what closes the last of them. -/
theorem split_bodies {others : List Body} {tail : List Token} {statements : List Statement}
    (hbodies : ∀ b ∈ others, IsScript b.tokens b.nodes) (hopens : ∀ b ∈ others, b.opening.OpensBody 0)
    (hatomic : ∀ b ∈ others, ∀ rest, atomicLength (b.opening.tokens ++ rest) = 0)
    (hread : ∀ b ∈ others, ∀ t ∈ b.allTokens, t.IsRead)
    (hsplit : ∀ b ∈ others, ∀ rest, Splitter.start.split (b.tokens ++ rest)
      = b.nodes.flatten ++ Splitter.start.split rest)
    (htail : Splitter.start.split tail = statements) (htail' : atomicLength tail = 0) :
    Splitter.start.split (others.flatMap Body.allTokens ++ tail)
        = others.flatMap Body.statements ++ statements ∧
      atomicLength (others.flatMap Body.allTokens ++ tail) = 0 := by
  induction others with
  | nil => exact ⟨htail, htail'⟩
  | cons b others ih =>
    simp only [List.mem_cons, forall_eq_or_imp] at hbodies hopens hatomic hread hsplit
    obtain ⟨hrest, hrest'⟩ := ih hbodies.2 hopens.2 hatomic.2 hread.2 hsplit.2
    have hbody : atomicLength (b.tokens ++ (others.flatMap Body.allTokens ++ tail)) = 0 :=
      hbodies.1.atomicLength_append (fun t ht => hread.1 t (by simp [Body.allTokens, ht])) hrest'
    simp only [List.flatMap_cons, Body.allTokens, Body.statements, List.append_assoc] at hrest ⊢
    refine ⟨?_, hatomic.1 _⟩
    rw [hopens.1.1 _ hbody, hsplit.1, hrest]
    simp

/-- The statements of a script are those of its nodes, whatever follows. -/
theorem IsScript.split {ts : List Token} {nodes : List (List Statement)} (h : IsScript ts nodes)
    (hread : ∀ t ∈ ts, t.IsRead) (rest : List Token) :
    Splitter.start.split (ts ++ rest) = nodes.flatten ++ Splitter.start.split rest := by
  induction h generalizing rest with
  | nil => rfl
  | @simple s semicolon more nodes hs hsemicolon _ ih =>
    rw [List.append_assoc, List.cons_append,
      Splitter.split_sentence hs (fun t ht => hread t (by simp [ht])) hsemicolon,
      ih fun t ht => hread t (by simp [ht])]
    rfl
  | @construct first others closing semicolon more nodes hconstruct hfirst hothers hsemicolon _
      ihfirst ihothers ih =>
    obtain ⟨hparts, hclosing, hrest⟩ := isRead_of_construct hread
    obtain ⟨-, hopen, hbody⟩ := hparts first (by simp)
    have hother : ∀ b ∈ others, b ∈ first :: others := fun b hb => List.mem_cons_of_mem _ hb
    have hmore : ∀ t ∈ more, t.IsRead := fun t ht => hrest t (by simp [ht])
    obtain ⟨hatomic, hatomic'⟩ := hconstruct.atomicLength_after
    -- What follows the first body is read as the other bodies, the end, and what comes after it.
    have htail := (hconstruct.closesBody hclosing).1 semicolon (more ++ rest) hsemicolon
    rw [ih hmore] at htail
    obtain ⟨hsplit, hafter⟩ := split_bodies hothers
      (fun b hb => hconstruct.opensBody_other (List.mem_map_of_mem hb) (hparts b (hother b hb)).2.1)
      (fun b hb => hatomic _ (List.mem_map_of_mem hb) (hparts b (hother b hb)).2.1)
      (fun b hb => (hparts b (hother b hb)).1)
      (fun b hb => ihothers b hb (hparts b (hother b hb)).2.2) htail (hatomic' hclosing _)
    have hfollows := hfirst.atomicLength_append hbody hafter
    simp only [Body.allTokens, Body.statements, List.append_assoc, List.cons_append]
      at hsplit hfollows ⊢
    rw [(hconstruct.opensBody_first hopen).1 _ hfollows, ihfirst hbody, hsplit]
    simp

/-! ### Groups -/

namespace Group

/-- A statement that leaves a body open is in the group that was started. -/
theorem gather_of_pos {current : List Statement} {depth : Int} {s : Statement}
    (h : 0 < depth + s.depthChange) (rest : List Statement) :
    gather current depth (s :: rest) = gather (current ++ [s]) (depth + s.depthChange) rest := by
  rw [gather, if_pos h]

/-- A statement that leaves no body open is the last one of its group. -/
theorem gather_of_zero {current : List Statement} {depth : Int} {s : Statement}
    (h : depth + s.depthChange = 0) (rest : List Statement) :
    gather current depth (s :: rest) = ⟨current ++ [s], by simp, .closed⟩ :: gather [] 0 rest := by
  rw [gather, h]
  rfl

/-- Whether statements in a body go to the group that was started, whatever follows them. -/
def StayTogether (ss : List Statement) : Prop :=
  ∀ (current : List Statement) (depth : Int) (rest : List Statement), 0 < depth →
    gather current depth (ss ++ rest) = gather (current ++ ss) depth rest

/-- What a group is, apart from being a group. -/
def parts (g : Group) : List Statement × Ending := (g.statements, g.ending)

end Group

/-- The bodies of a construct leave one more body open, until it is closed. -/
theorem gather_bodies {others : List Body} {current : List Statement} {depth : Int} (h : 0 < depth)
    (hopens : ∀ b ∈ others, b.opening.depthChange = 0)
    (hbodies : ∀ b ∈ others, Group.StayTogether b.nodes.flatten) (rest : List Statement) :
    Group.gather current depth (others.flatMap Body.statements ++ rest)
      = Group.gather (current ++ others.flatMap Body.statements) depth rest := by
  induction others generalizing current with
  | nil => simp
  | cons b others ih =>
    simp only [List.mem_cons, forall_eq_or_imp] at hopens hbodies
    simp only [List.flatMap_cons, Body.statements, List.append_assoc, List.cons_append]
    rw [Group.gather_of_pos (by rw [hopens.1]; omega), hopens.1, Int.add_zero,
      hbodies.1 _ _ _ h, ih hopens.2 hbodies.2]
    simp

/-- Up to its end, a construct leaves one more body open. -/
theorem gather_construct {first : Body} {others : List Body} {closing : Statement}
    (hconstruct : IsConstruct first.opening.tokens (others.map fun b => b.opening.tokens)
      closing.tokens)
    (hopenings : ∀ b ∈ first :: others, ∀ t ∈ b.opening.tokens, t.IsRead)
    (hbodies : ∀ b ∈ first :: others, Group.StayTogether b.nodes.flatten)
    {current : List Statement} {depth : Int} (hdepth : 0 ≤ depth) (rest : List Statement) :
    Group.gather current depth (first.statements ++ (others.flatMap Body.statements ++ rest))
      = Group.gather (current ++ (first.statements ++ others.flatMap Body.statements)) (depth + 1)
        rest := by
  have hfirst := (hconstruct.opensBody_first (hopenings first (by simp))).2
  have hothers : ∀ b ∈ others, b.opening.depthChange = 0 := fun b hb =>
    (hconstruct.opensBody_other (List.mem_map_of_mem hb) (hopenings b (by simp [hb]))).2
  rw [Body.statements, List.cons_append, Group.gather_of_pos (by rw [hfirst]; omega), hfirst,
    hbodies first (by simp) _ _ _ (by omega), gather_bodies (by omega) hothers
      fun b hb => hbodies b (by simp [hb])]
  simp

/-- In a body, the statements of a script leave the depth as it is. -/
theorem IsScript.gather_inside {ts : List Token} {nodes : List (List Statement)}
    (h : IsScript ts nodes) (hread : ∀ t ∈ ts, t.IsRead) : Group.StayTogether nodes.flatten := by
  induction h with
  | nil =>
    intro current depth rest _
    simp
  | @simple s semicolon more nodes hs _ _ ih =>
    intro current depth rest hdepth
    -- A sentence leaves the depth as it is.
    have hchange := Statement.depthChange_sentence hs fun t ht => hread t (by simp [ht])
    rw [List.flatten_cons, List.append_assoc, List.singleton_append,
      Group.gather_of_pos (by rw [hchange]; omega), hchange, Int.add_zero,
      ih (fun t ht => hread t (by simp [ht])) _ _ _ hdepth]
    simp
  | @construct first others closing semicolon more nodes hconstruct _ _ _ _ ihfirst ihothers ih =>
    intro current depth rest hdepth
    obtain ⟨hparts, hclosing, hrest⟩ := isRead_of_construct hread
    -- A construct adds a level and takes it away again, and its bodies stay together in between.
    have hbodies : ∀ b ∈ first :: others, Group.StayTogether b.nodes.flatten := by
      intro b hb
      rcases List.mem_cons.mp hb with rfl | hother
      · exact ihfirst (hparts b hb).2.2
      · exact ihothers b hother (hparts b hb).2.2
    have hchange := (hconstruct.closesBody hclosing).2
    rw [List.flatten_cons, List.append_assoc, List.append_assoc, List.append_assoc,
      gather_construct hconstruct (fun b hb => (hparts b hb).2.1) hbodies (by omega),
      List.singleton_append, Group.gather_of_pos (by rw [hchange]; omega), hchange,
      show depth + 1 + -1 = depth by omega, ih (fun t ht => hrest t (by simp [ht])) _ _ _ hdepth]
    simp

/-- The nodes of a script are its groups, whatever follows. -/
theorem IsScript.gather {ts : List Token} {nodes : List (List Statement)} (h : IsScript ts nodes)
    (hread : ∀ t ∈ ts, t.IsRead) (rest : List Statement) :
    (Group.gather [] 0 (nodes.flatten ++ rest)).map Group.parts
      = nodes.map (fun node => (node, Ending.closed)) ++
        (Group.gather [] 0 rest).map Group.parts := by
  induction h generalizing rest with
  | nil => rfl
  | @simple s semicolon more nodes hs _ _ ih =>
    have hchange := Statement.depthChange_sentence hs fun t ht => hread t (by simp [ht])
    rw [List.flatten_cons, List.append_assoc, List.singleton_append,
      Group.gather_of_zero (by rw [hchange]; rfl), List.map_cons,
      ih fun t ht => hread t (by simp [ht])]
    rfl
  | @construct first others closing semicolon more nodes hconstruct hfirst hothers _ _ _ _ ih =>
    obtain ⟨hparts, hclosing, hrest⟩ := isRead_of_construct hread
    have hbodies : ∀ b ∈ first :: others, Group.StayTogether b.nodes.flatten := by
      intro b hb
      rcases List.mem_cons.mp hb with rfl | hother
      · exact hfirst.gather_inside (hparts b hb).2.2
      · exact (hothers b hother).gather_inside (hparts b hb).2.2
    have hchange := (hconstruct.closesBody hclosing).2
    rw [List.flatten_cons, List.append_assoc, List.append_assoc, List.append_assoc,
      gather_construct hconstruct (fun b hb => (hparts b hb).2.1) hbodies (by omega),
      List.singleton_append, Group.gather_of_zero (by rw [hchange]; rfl), List.map_cons,
      ih fun t ht => hrest t (by simp [ht])]
    simp [Group.parts]

/-! ### Texts -/

/-- A text that reads as a script of the grammar has the statements of that script, and its groups
    are the nodes of the script, all of them closed. -/
theorem Script.ofText_of_isScript {t : Text} {nodes : List (List Statement)}
    (h : IsScript (Token.scan t) nodes) :
    (Script.ofText t).statements = nodes.flatten ∧
      (Script.ofText t).groups.map (fun g => (g.statements, g.ending))
        = nodes.map fun node => (node, Ending.closed) := by
  have hread : ∀ u ∈ Token.scan t, u.IsRead := fun u hu => Token.isRead_of_mem_scan hu
  have hstatements : (Script.ofText t).statements = nodes.flatten := by
    have hsplit := h.split hread []
    rw [List.append_nil] at hsplit
    have hnil : Splitter.start.split [] = [] := rfl
    rw [hnil, List.append_nil] at hsplit
    exact hsplit
  refine ⟨hstatements, ?_⟩
  have hgroups := h.gather hread []
  rw [List.append_nil] at hgroups
  have hnone : Group.gather [] 0 [] = [] := rfl
  rw [hnone, List.map_nil, List.append_nil, ← hstatements] at hgroups
  exact hgroups

/-- Nothing is a sentence, in front of a `BEGIN`. -/
theorem IsSentence.nil : IsSentence [] where
  part := ⟨by simp, rfl, rfl⟩
  verb := by simp [governingVerb?, governing?, governed, splitLabel, Token.significant]
  notAtomic := by simp
  notNotAtomic := by simp

/-- A word on its own is a sentence. -/
theorem IsSentence.of_word {t : Token} (hk : t.kind = .word) (hverb : Verb.ofKey? t.key = none)
    (hinert : Token.isInert [] 0 0 [t] = true) (hatomic : t.spells "ATOMIC" = false) :
    IsSentence [t] where
  part := ⟨by simp [Token.isComment, hk], hinert, rfl⟩
  verb := by
    have hcomment : ∀ u ∈ [t], u.isComment = false := by simp [Token.isComment, hk]
    rw [governingVerb?, governing?, governed_of_not_colon (by simp) hcomment, List.head?_cons,
      Option.bind_some, hverb]
    simp
  notAtomic := by simpa using hatomic
  notNotAtomic := by simp

/-- A loop in a compound statement. -/
theorem Script.ofText_of_isScript_loop :
    ∃ nodes : List (List Statement), nodes.map List.length = [5] ∧
      IsScript (Token.scan "begin while a do b; end while; end;".toList) nodes ∧
      (Script.ofText "begin while a do b; end while; end;".toList).statements = nodes.flatten ∧
      (Script.ofText "begin while a do b; end while; end;".toList).groups.map
          (fun g => (g.statements, g.ending)) = nodes.map fun node => (node, Ending.closed) := by
  let begins : Statement := ⟨[.placed .verb "begin".toList 0], by simp⟩
  let whiles : Statement := ⟨[.placed .verb "while".toList 6, .placed .word "a".toList 12,
    .placed .word "do".toList 14], by simp⟩
  let simple : Statement := ⟨[.placed .word "b".toList 17], by simp⟩
  let endsWhile : Statement :=
    ⟨[.placed .verb "end".toList 20, .placed .verb "while".toList 24], by simp⟩
  let ends : Statement := ⟨[.placed .verb "end".toList 31], by simp⟩
  have hscan : Token.scan "begin while a do b; end while; end;".toList
      = begins.tokens ++ (whiles.tokens ++ (simple.tokens ++ [.placed .semicolon [';'] 18]) ++
          (endsWhile.tokens ++ [.placed .semicolon [';'] 29])) ++
          (ends.tokens ++ [.placed .semicolon [';'] 34]) := by
    decide +kernel
  have hsimple : IsScript (simple.tokens ++ [.placed .semicolon [';'] 18]) [[simple]] :=
    .simple (.of_word rfl (by decide +kernel) (by decide +kernel) (by decide +kernel)) rfl .nil
  have hguarded : IsGuarded "WHILE" "DO" whiles.tokens :=
    @IsGuarded.mk _ _ _ _ [.placed .word "a".toList 12] (by decide +kernel)
      ⟨by decide, by decide +kernel, rfl⟩ (by decide +kernel)
  have hwhile : IsConstruct whiles.tokens [] endsWhile.tokens :=
    .whileLoop .none hguarded (by decide +kernel)
  have hbegin : IsConstruct begins.tokens [] ends.tokens :=
    @IsConstruct.compound [] [] _ _ .none .nil (.inl (by decide +kernel)) (.inl (by decide +kernel))
  have hscript : IsScript (Token.scan "begin while a do b; end while; end;".toList)
      [[begins, whiles, simple, endsWhile, ends]] := by
    rw [hscan]
    have hloop := @IsScript.construct ⟨whiles, _, _⟩ [] endsWhile (.placed .semicolon [';'] 29) _ _
      hwhile hsimple (by simp) rfl .nil
    exact @IsScript.construct ⟨begins, _, _⟩ [] ends (.placed .semicolon [';'] 34) _ _ hbegin hloop
      (by simp) rfl .nil
  exact ⟨_, rfl, hscript, Script.ofText_of_isScript hscript⟩

end SqlScript
