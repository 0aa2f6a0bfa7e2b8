import SqlScript.Proofs.Script.Depth
import SqlScript.Statement.Reference
import SqlScript.Statement.Schema

namespace SqlScript

/-!
# Labels

A label and its colon in front of a statement change neither what it is nor what it is about. The
current schema is an exception: its words are looked for behind the first token, which is the label,
so that a statement with a label switches to no schema.

* `Statement.AnswersAlike` — whether two statements are the same in all that is asked about them,
  but for their labels and the schemas that they switch to;
* `Statement.labelled` — the statement with a label in front of it;
* `Statement.answersAlike_labelled` — a label changes nothing but the schema.
-/

namespace Statement

/-! ### Answers -/

/-- Whether two statements are the same in all that is asked about them, but for their labels and
    the schemas that they switch to. -/
structure AnswersAlike (s q : Statement) : Prop where
  verb? : s.verb? = q.verb?
  opener? : s.opener? = q.opener?
  opensCompound : s.opensCompound = q.opensCompound
  opensConditional : s.opensConditional = q.opensConditional
  closesCompound : s.closesCompound = q.closesCompound
  closesConditional : s.closesConditional = q.closesConditional
  reference? : s.reference? = q.reference?
  changedName? : s.changedName? = q.changedName?

variable {s q : Statement}

/-- All answers follow from the governed tokens, the word that opens a body and the conditions that
    end in a statement. -/
theorem answersAlike_of_governed (hgoverned : governed s.tokens = governed q.tokens)
    (hopener : s.opener? = q.opener?)
    (hend : hasConditionEnd s.significant = hasConditionEnd q.significant) : s.AnswersAlike q := by
  have hverb : s.verb? = q.verb? := by
    rw [verb?, governingVerb?, governing?, hgoverned, verb?, governingVerb?, governing?]
  have hoperands : s.operands = q.operands := by rw [operands, hgoverned, operands]
  have hreference : s.reference? = q.reference? := by rw [reference?, hverb, hoperands, reference?]
  constructor
  · exact hverb
  · exact hopener
  · rw [opensCompound, hopener, opensCompound]
  · rw [opensConditional, hopener, opensConditional]
  · rw [closesCompound, hasVerb, hverb, hoperands, closesCompound, hasVerb]
  · rw [closesConditional, hasVerb, hverb, hend, closesConditional, hasVerb]
  · exact hreference
  · rw [changedName?, hreference, changedName?]

/-! ### A label in front -/

/-- The statement with two more tokens in front of it, a label and its colon. -/
def labelled (label colon : Token) (s : Statement) : Statement :=
  ⟨label :: colon :: s.tokens, by simp⟩

variable {label colon : Token}

/-- Whether the tokens are a label and the colon behind it. -/
structure IsLabelling (label colon : Token) : Prop where
  kind_label : label.kind = .word
  kind_colon : colon.kind = .colon
  text_colon : colon.text = [':']

namespace IsLabelling

/-- The label and its colon are no comments. -/
theorem significant_labelled (h : IsLabelling label colon) :
    (s.labelled label colon).significant = label :: colon :: s.significant := by
  have hlabel : label.isComment = false := by rw [Token.isComment, h.kind_label]; rfl
  have hcolon : colon.isComment = false := by rw [Token.isComment, h.kind_colon]; rfl
  simp [significant, labelled, Token.significant, hlabel, hcolon]

/-- The key of the colon is the colon. -/
theorem key_colon (h : IsLabelling label colon) : colon.key = [':'] := by
  rw [Token.key, h.text_colon]
  rfl

/-- The colon spells no word. -/
theorem spells_colon (h : IsLabelling label colon) {w : String} (hw : w.toList ≠ [':']) :
    colon.spells w = false := by
  rw [Token.spells, h.key_colon, beq_eq_false_iff_ne]
  exact hw.symm

/-- The label is what is split off. -/
theorem splitLabel_labelled (h : IsLabelling label colon) (hs : s.significant ≠ []) :
    splitLabel (s.labelled label colon).significant = (some label, s.significant) := by
  obtain ⟨t, rest, hsplit⟩ := List.exists_cons_of_ne_nil hs
  rw [h.significant_labelled, hsplit, splitLabel, if_pos ⟨h.kind_label, h.kind_colon⟩]

/-- A label is not the `END` of a condition, and neither is its colon. -/
theorem hasConditionEnd_labelled (h : IsLabelling label colon) :
    hasConditionEnd (s.labelled label colon).significant = hasConditionEnd s.significant := by
  have hcolon : isConditionKey colon.key = false := by rw [h.key_colon]; decide
  rw [h.significant_labelled, hasConditionEnd_cons_cons, hcolon, Bool.and_false, Bool.false_or]
  cases s.significant with
  | nil => rfl
  | cons t rest =>
    rw [hasConditionEnd_cons_cons, h.spells_colon (by decide), Bool.false_and, Bool.false_or]

/-- Behind a colon, the same words end in `BEGIN`. -/
theorem endsInBegin_append (h : IsLabelling label colon) (words : List Text) :
    endsInBegin (words ++ [colon.key, label.key]) = endsInBegin words := by
  cases words with
  | nil => simp [endsInBegin, h.key_colon]
  | cons w words =>
    rw [List.cons_append, endsInBegin, endsInBegin]
    cases words with
    | nil => simp [h.key_colon]
    | cons v words => rfl

end IsLabelling

/-- Where there is no label, all tokens that are no comments are governed. -/
theorem governed_of_label?_eq_none (h : s.label? = none) : governed s.tokens = s.significant := by
  have hlabel : (splitLabel s.significant).1 = none := Option.map_eq_none_iff.mp h
  show (splitLabel s.significant).2 = s.significant
  match s.significant, hlabel with
  | [], _ => rfl
  | [_], _ => rfl
  | [_, _], _ => rfl
  | l :: c :: t :: rest, hlabel =>
    rw [splitLabel] at hlabel ⊢
    split at hlabel
    · exact absurd hlabel (by simp)
    · rename_i hkinds
      rw [if_neg hkinds]

/-- A statement with a label opens the same body. -/
theorem opener?_labelled (h : IsLabelling label colon) (hs : s.significant ≠ [])
    (hgoverned : governed (s.labelled label colon).tokens = governed s.tokens) :
    (s.labelled label colon).opener? = s.opener? := by
  have hverb : (s.labelled label colon).verb? = s.verb? := by
    rw [verb?, governingVerb?, governing?, hgoverned, verb?, governingVerb?, governing?]
  have hoperands : (s.labelled label colon).operands = s.operands := by
    rw [operands, hgoverned, operands]
  -- The words are read from the last one on, so that the label comes at the end of them.
  have hkeys : ((s.labelled label colon).significant.map Token.key).reverse
      = (s.significant.map Token.key).reverse ++ [colon.key, label.key] := by
    rw [h.significant_labelled]
    simp
  unfold opener? hasVerb
  rw [hkeys, hverb, hoperands]
  cases hwords : (s.significant.map Token.key).reverse with
  | nil => exact absurd (by simpa using hwords) hs
  | cons last before => simp only [List.cons_append, h.endsInBegin_append]

/-- The words for a schema are looked for behind the label, where the colon stands. -/
theorem newSchema?_labelled (h : IsLabelling label colon) :
    (s.labelled label colon).newSchema? = none := by
  unfold newSchema?
  rw [h.significant_labelled, List.tail_cons, dropOptional, h.spells_colon (by decide)]
  simp only [Bool.false_eq_true, if_false, h.spells_colon (w := "SCHEMA") (by decide),
    h.spells_colon (w := "CURRENT_SCHEMA") (by decide), Bool.or_false, ite_self]

/-- A label in front of a statement which has none, and has more than comments, is the label of it
    and changes nothing else, but for the schema: with a label, no statement switches to one. -/
theorem answersAlike_labelled (h : IsLabelling label colon) (hs : s.significant ≠ [])
    (hnone : s.label? = none) :
    (s.labelled label colon).label? = some label.text ∧ (s.labelled label colon).AnswersAlike s ∧
      (s.labelled label colon).newSchema? = none := by
  have hsplit := h.splitLabel_labelled hs
  have hgoverned : governed (s.labelled label colon).tokens = governed s.tokens := by
    rw [governed_of_label?_eq_none hnone]
    exact congrArg Prod.snd hsplit
  refine ⟨?_, ?_, newSchema?_labelled h⟩
  · rw [label?, hsplit]
    rfl
  · exact answersAlike_of_governed hgoverned (opener?_labelled h hs hgoverned)
      h.hasConditionEnd_labelled

/-- A loop that opens a body with its only word, behind a comment. -/
theorem answersAlike_labelled_loop :
    let s : Statement := ⟨Token.scan "/* c */ loop".toList, by decide +kernel⟩
    let label := Token.placed .word ['l'] 0
    let colon := Token.placed .colon [':'] 1
    s.significant ≠ [] ∧ s.label? = none ∧ s.opener? = some .LOOP ∧
      (s.labelled label colon).label? = some ['l'] ∧ (s.labelled label colon).AnswersAlike s ∧
      (s.labelled label colon).newSchema? = none := by
  intro s label colon
  have hs : s.significant ≠ [] := by decide +kernel
  have hnone : s.label? = none := by decide +kernel
  have hlabel : IsLabelling label colon := ⟨rfl, rfl, rfl⟩
  exact ⟨hs, hnone, by decide +kernel, answersAlike_labelled hlabel hs hnone⟩

/-- A statement that switches to a schema does not with a label in front of it. -/
theorem newSchema?_of_label :
    let s : Statement := ⟨Token.scan "SET SCHEMA X".toList, by decide +kernel⟩
    let q : Statement := ⟨Token.scan "L: SET SCHEMA X".toList, by decide +kernel⟩
    s.label? = none ∧ q.label? = some ['L'] ∧ s.verb? = some .SET ∧ q.verb? = some .SET ∧
      s.newSchema? = some ['X'] ∧ q.newSchema? = none := by
  decide +kernel

end Statement

end SqlScript
