import SqlScript.Proofs.Token.Place
import SqlScript.Proofs.Token.Recase
import SqlScript.Layout.Page
import SqlScript.Text.Recased

namespace SqlScript

/-!
# Scripts of other tokens

How a script is read depends on the kinds of its tokens and on the words of the language among them.
A mapping of tokens that changes neither maps the statements and the groups of a script to those of
the tokens that it gives.

* `Token.Alike` — whether a mapping of tokens changes nothing by which a script is read,
  `Token.Faithful` — nor anything by which it is laid out, and `Token.KeepsKeys` — nor any word;
* `Statement.map` — the statement of other tokens; what is asked about a statement has the same
  answers for it;
* `Statement.ofTokens_map` — the statements of other tokens;
* `Group.ofStatements_map` — the groups of their statements.
-/

/-- Whether the mapping changes nothing by which a script is read. -/
structure Token.Alike (f : Token → Token) : Prop where
  kind : ∀ t, (f t).kind = t.kind
  spells : ∀ t, ∀ {w}, isGuide w = true → (f t).spells w = t.spells w

/-- Whether the mapping changes nothing by which a script is read or laid out. Where tokens stand is
    forgotten, so that tokens of different texts can be compared. -/
structure Token.Faithful (f : Token → Token) : Prop extends Alike f where
  isLineComment : ∀ t, (f t).isLineComment = t.isLineComment
  recased : ∀ t : Token, t.isLineComment = false → Recased t.text (f t).text
  span : ∀ t, (f t).span = ⟨0, 0⟩

/-- The places of tokens make no difference. -/
theorem Token.faithful_ofLexeme : Faithful unplaced where
  kind _ := rfl
  spells _ _ _ := rfl
  isLineComment _ := rfl
  recased _ _ := Recased.refl _
  span _ := rfl

variable {f : Token → Token}

/-- Whether the mapping changes neither the kinds of tokens nor the words that they spell. -/
structure Token.KeepsKeys (f : Token → Token) : Prop where
  kind : ∀ t, (f t).kind = t.kind
  key : ∀ t, (f t).key = t.key

/-- A mapping that keeps keys changes no word, of the language or not. -/
theorem Token.KeepsKeys.spells (hf : KeepsKeys f) (t : Token) (w : String) :
    (f t).spells w = t.spells w := by
  rw [Token.spells, Token.spells, hf.key]

/-- A mapping that keeps all words keeps those of the language. -/
theorem Token.KeepsKeys.alike (hf : KeepsKeys f) : Alike f := ⟨hf.kind, fun t w _ => hf.spells t w⟩

/-- A mapping that changes no more than places changes nothing by which a script is read. -/
theorem Token.KeepsLexemes.keepsKeys (hf : KeepsLexemes f) : KeepsKeys f := ⟨hf.kind, hf.key⟩

/-- A mapping that changes no more than places changes nothing by which a script is read. -/
theorem Token.KeepsLexemes.alike (hf : KeepsLexemes f) : Alike f := hf.keepsKeys.alike

/-! ### Tokens -/

namespace Token.Alike

/-- A comment stays a comment, and no other token becomes one. -/
theorem isComment (hf : Alike f) (t : Token) : (f t).isComment = t.isComment := by
  rw [Token.isComment, Token.isComment, hf.kind]

/-- A token has the key of a word of the language exactly when it had it before. -/
theorem key_eq_iff (hf : Alike f) {w : String} (hw : isGuide w = true) (t : Token) :
    (f t).key = w.toList ↔ t.key = w.toList := by
  have := hf.spells t hw
  rwa [Token.spells, Token.spells, Bool.eq_iff_iff, beq_iff_eq, beq_iff_eq] at this

/-- A token is the same verb as before. -/
theorem ofKey? (hf : Alike f) (t : Token) : Verb.ofKey? (f t).key = Verb.ofKey? t.key := by
  refine congrArg (Verb.all.find? ·) (funext fun v => ?_)
  have hguide : isGuide (String.ofList v.word) = true := by
    rw [isGuide, String.toList_ofList, Verb.ofKey?_word, Option.isSome_some, Bool.or_true]
  have := hf.key_eq_iff hguide t
  rw [String.toList_ofList] at this
  rw [Bool.eq_iff_iff, beq_iff_eq, beq_iff_eq, eq_comm, this, eq_comm]

/-- A token is one of some words of the language exactly when it was one before. -/
theorem isOneOf (hf : Alike f) {words : List String} (hw : words.all isGuide = true)
    (t : Token) : isOneOf words (f t).key = isOneOf words t.key := by
  rw [Bool.eq_iff_iff, SqlScript.isOneOf, SqlScript.isOneOf, List.any_eq_true, List.any_eq_true]
  refine exists_congr fun w => and_congr_right fun hmem => ?_
  rw [beq_iff_eq, beq_iff_eq, eq_comm, hf.key_eq_iff (List.all_eq_true.mp hw w hmem), eq_comm]

/-- Comments are left out before the mapping or behind it. -/
theorem significant_map (hf : Alike f) (ts : List Token) :
    Token.significant (ts.map f) = (Token.significant ts).map f := by
  rw [Token.significant, Token.significant, List.filter_map]
  congr 1
  exact List.filter_congr fun t _ => by simp [hf.isComment]

end Token.Alike

open Token (Alike)

/-- A label is found in front of the same tokens. -/
theorem splitLabel_map (hf : Alike f) (ts : List Token) :
    splitLabel (ts.map f) = ((splitLabel ts).1.map f, (splitLabel ts).2.map f) := by
  match ts with
  | [] => rfl
  | [_] => rfl
  | [_, _] => rfl
  | label :: colon :: t :: rest =>
    simp only [List.map_cons, splitLabel, hf.kind]
    split <;> simp

/-- What stands behind a label is mapped one by one. -/
theorem governed_map (hf : Alike f) (ts : List Token) :
    governed (ts.map f) = (governed ts).map f := by
  rw [governed, hf.significant_map, splitLabel_map hf, governed]

/-- The verb that governs some tokens governs what they are mapped to. -/
theorem governingVerb?_map (hf : Alike f) (ts : List Token) :
    governingVerb? (ts.map f) = governingVerb? ts := by
  rw [governingVerb?, governing?, governed_map hf, List.head?_map, governingVerb?, governing?]
  cases (governed ts).head? with
  | none => rfl
  | some t => exact hf.ofKey? t

/-! ### Statements -/

namespace Statement

/-- The statement of the tokens that the mapping gives. -/
def map (f : Token → Token) (s : Statement) : Statement :=
  ⟨s.tokens.map f, by simpa using s.nonempty⟩

variable (s : Statement)

/-- The tokens of a statement that are no comments are mapped one by one. -/
theorem significant_map (hf : Alike f) : (s.map f).significant = s.significant.map f :=
  hf.significant_map s.tokens

/-- A statement of other tokens has the same verb. -/
theorem verb?_map (hf : Alike f) : (s.map f).verb? = s.verb? := governingVerb?_map hf s.tokens

/-- A statement of other tokens has the operands of the statement, mapped one by one. -/
theorem operands_map (hf : Alike f) : (s.map f).operands = s.operands.map f := by
  rw [operands, show (s.map f).tokens = s.tokens.map f from rfl, governed_map hf, operands,
    List.map_tail]

/-- A statement of other tokens is asked for its verb with the same result. -/
theorem hasVerb_map (hf : Alike f) (verbs : List Verb) :
    (s.map f).hasVerb verbs = s.hasVerb verbs := by
  rw [hasVerb, verb?_map s hf, hasVerb]

/-- Words end in `BEGIN` exactly when they did before. -/
theorem endsInBegin_map (hf : Alike f) (ts : List Token) :
    endsInBegin ((ts.map f).map Token.key) = endsInBegin (ts.map Token.key) := by
  have hbegin := fun t => hf.key_eq_iff (w := "BEGIN") (by decide) t
  cases ts with
  | nil => rfl
  | cons t rest =>
    simp only [List.map_cons, endsInBegin, hf.key_eq_iff (w := "NOT") (by decide)]
    split
    · cases rest with
      | nil => rfl
      | cons u rest =>
        show (some (f u).key == some "BEGIN".toList) = (some u.key == some "BEGIN".toList)
        rw [Bool.eq_iff_iff, beq_iff_eq, beq_iff_eq, Option.some.injEq, Option.some.injEq, hbegin]
    · rw [Bool.eq_iff_iff, beq_iff_eq, beq_iff_eq, hbegin]

/-- A statement of other tokens opens a body with the same word. -/
theorem opener?_map (hf : Alike f) : (s.map f).opener? = s.opener? := by
  unfold opener?
  rw [significant_map s hf, ← List.map_reverse, ← List.map_reverse, ← List.map_reverse]
  cases s.significant.reverse with
  | nil => rfl
  | cons last before =>
    simp only [List.map_cons, hf.key_eq_iff (w := "ATOMIC") (by decide),
      hf.key_eq_iff (w := "BEGIN") (by decide), hf.key_eq_iff (w := "THEN") (by decide),
      hf.key_eq_iff (w := "DO") (by decide), endsInBegin_map hf, hasVerb_map s hf, verb?_map s hf,
      operands_map s hf, List.isEmpty_map]

/-- A statement of other tokens is ended by a semicolon exactly when the statement is. -/
theorem isTerminated_map (hf : Alike f) : (s.map f).isTerminated = s.isTerminated := by
  rw [isTerminated, opener?_map s hf, significant_map s hf, List.isEmpty_map, isTerminated]

/-- The words of conditions stay what they are. -/
theorem isConditionKey_map (hf : Alike f) (t : Token) :
    isConditionKey (f t).key = isConditionKey t.key :=
  hf.isOneOf (by decide) t

/-- A statement of other tokens closes a compound body exactly when the statement does. -/
theorem closesCompound_map (hf : Alike f) : (s.map f).closesCompound = s.closesCompound := by
  rw [closesCompound, hasVerb_map s hf, operands_map s hf, List.head?_map, closesCompound]
  cases s.operands.head? with
  | none => rfl
  | some t =>
    have hcase := hf.spells t (w := "CASE") (by decide)
    rw [Token.spells, Token.spells] at hcase
    simp only [Option.map_some, Option.all_some, isConditionKey_map hf, bne, hcase]

/-- The end of a condition stays one, and no other one comes about. -/
theorem hasConditionEnd_map (hf : Alike f) (ts : List Token) :
    hasConditionEnd (ts.map f) = hasConditionEnd ts := by
  rw [hasConditionEnd, hasConditionEnd, ← List.map_tail, List.zip_map, List.any_map]
  refine List.any_congr rfl fun ⟨t, u⟩ => ?_
  show ((f t).spells "END" && isConditionKey (f u).key) = _
  rw [hf.spells t (w := "END") (by decide), isConditionKey_map hf]

/-- A statement of other tokens closes a conditional body exactly when the statement does. -/
theorem closesConditional_map (hf : Alike f) :
    (s.map f).closesConditional = s.closesConditional := by
  rw [closesConditional, hasVerb_map s hf, significant_map s hf, hasConditionEnd_map hf,
    closesConditional]

/-- A statement of other tokens closes a body exactly when the statement does. -/
theorem closes_map (hf : Alike f) : (s.map f).closes = s.closes := by
  rw [closes, closesCompound_map s hf, closesConditional_map s hf, closes]

/-- A statement of other tokens opens a body exactly when the statement does. -/
theorem opens_map (hf : Alike f) : (s.map f).opens = s.opens := by
  rw [opens, opensCompound, opensConditional, opener?_map s hf, opens, opensCompound,
    opensConditional]

/-- A statement of other tokens changes the number of open bodies by as much. -/
theorem depthChange_map (hf : Alike f) : (s.map f).depthChange = s.depthChange := by
  rw [depthChange, opens_map s hf, closes_map s hf, depthChange]

end Statement

/-! ### From tokens to statements -/

/-- The look-ahead behind `BEGIN` takes as many tokens. -/
theorem atomicLength_map (hf : Alike f) (ts : List Token) :
    atomicLength (ts.map f) = atomicLength ts := by
  have hatomic := fun t => hf.spells t (w := "ATOMIC") (by decide)
  have hnot := fun t => hf.spells t (w := "NOT") (by decide)
  have hfilter : (((ts.map f).take 4).zipIdx.filter fun p => !p.1.isComment)
      = ((ts.take 4).zipIdx.filter fun p => !p.1.isComment).map (Prod.map f id) := by
    rw [← List.map_take, List.zipIdx_map, List.filter_map]
    congr 1
    refine List.filter_congr fun p _ => ?_
    simp [hf.isComment]
  unfold atomicLength
  rw [hfilter]
  generalize (ts.take 4).zipIdx.filter (fun p => !p.1.isComment) = ps
  match ps with
  | [] => rfl
  | [(t, n)] => simp only [List.map_cons, List.map_nil, Prod.map, hatomic, id]
  | (t, n) :: (u, m) :: _ => simp only [List.map_cons, Prod.map, hatomic, hnot, id]

/-- A word that opens a conditional body still does. -/
theorem opensBody_map (hf : Alike f) (ts : List Token) (t : Token) :
    opensBody (ts.map f) (f t) = opensBody ts t := by
  have hloop : isOneOf ["ELSE", "LOOP", "REPEAT"] (f t).key
      = isOneOf ["ELSE", "LOOP", "REPEAT"] t.key := hf.isOneOf (by decide) t
  unfold opensBody
  simp only [governingVerb?_map hf, governed_map hf, List.length_map,
    hf.spells t (w := "THEN") (by decide), hf.spells t (w := "DO") (by decide),
    hloop]

namespace Splitter

/-- What was read so far, of the tokens that the mapping gives. -/
def map (f : Token → Token) (s : Splitter) : Splitter := { s with current := s.current.map f }

/-- A word means the same for the end of a statement. -/
theorem readWord_map (hf : Alike f) (s : Splitter) (t : Token) (following : List Token) :
    (s.map f).readWord (f t) (following.map f) = (s.readWord t following).map f := by
  have hopens : opensBody (s.map f).current (f t) = opensBody s.current t := opensBody_map hf ..
  simp only [readWord, hf.spells t (w := "CASE") (by decide),
    hf.spells t (w := "END") (by decide), hf.spells t (w := "BEGIN") (by decide),
    atomicLength_map hf, hopens, apply_ite (map f)]
  rfl

/-- One more token of a statement is read in the same way. -/
theorem add_map (hf : Alike f) (s : Splitter) (t : Token) (following : List Token) :
    (s.map f).add (f t) (following.map f) = (s.add t following).map f := by
  have hcurrent : (s.map f).current ++ [f t] = (s.current ++ [t]).map f := by
    simp [map]
  have hread := readWord_map hf
    { s with current := s.current ++ [t], awaited := s.awaited.map (· - 1) } t following
  unfold add
  rw [hf.kind, hcurrent]
  cases t.kind <;> simp only [] <;>
    first
    | rfl
    | (rw [apply_ite (map f), ← hread]; rfl)

/-- What was read so far is the statement of the other tokens. -/
theorem finish_map (s : Splitter) : (s.map f).finish = s.finish.map (Statement.map f) := by
  unfold finish
  by_cases h : s.current = []
  · rw [dif_pos h, dif_pos (show (s.map f).current = [] by simp [map, h])]
    rfl
  · rw [dif_neg h, dif_neg (show (s.map f).current ≠ [] by simpa [map] using h)]
    rfl

/-- The statements that are read of other tokens. -/
theorem split_map (hf : Alike f) (s : Splitter) (ts : List Token) :
    (s.map f).split (ts.map f) = (s.split ts).map (Statement.map f) := by
  induction ts generalizing s with
  | nil => exact finish_map s
  | cons t rest ih =>
    have hends : (s.map f).endsAt (f t) = s.endsAt t := by
      rw [endsAt, hf.kind]
      rfl
    rw [List.map_cons, split, split, hends]
    split
    · rw [List.map_append, finish_map, ← ih]
      rfl
    · simp only [add_map hf]
      rw [show ((s.add t rest).map f).awaited = (s.add t rest).awaited from rfl]
      split
      · rw [List.map_append, finish_map, ← ih]
        rfl
      · exact ih _

end Splitter

/-- The statements that other tokens make. -/
theorem Statement.ofTokens_map (hf : Alike f) (ts : List Token) :
    ofTokens (ts.map f) = (ofTokens ts).map (map f) :=
  Splitter.split_map hf .start ts

/-! ### From statements to groups -/

namespace Group

/-- The group of the tokens that the mapping gives. -/
def map (f : Token → Token) (g : Group) : Group :=
  ⟨g.statements.map (Statement.map f), by simpa using g.nonempty, g.ending⟩

/-- Statements are gathered into the same groups, whatever was gathered before them. -/
theorem gather_map (hf : Alike f) (current : List Statement) (depth : Int)
    (ss : List Statement) :
    gather (current.map (Statement.map f)) depth (ss.map (Statement.map f))
      = (gather current depth ss).map (map f) := by
  induction ss generalizing current depth with
  | nil =>
    rw [List.map_nil, gather, gather]
    by_cases h : current = []
    · subst h
      rfl
    · rw [dif_neg h, dif_neg (by simpa using h)]
      rfl
  | cons s ss ih =>
    rw [List.map_cons, gather, gather]
    simp only [s.depthChange_map hf]
    split
    · rw [← ih, List.map_append]
      rfl
    · rw [List.map_cons, ← ih]
      simp [map]

/-- The groups that the statements of other tokens make. -/
theorem ofStatements_map (hf : Alike f) (ss : List Statement) :
    ofStatements (ss.map (Statement.map f)) = (ofStatements ss).map (map f) :=
  gather_map hf [] 0 ss

end Group

/-- The statements of other tokens are indented as far. -/
theorem indentations_map (hf : Alike f) (width : Nat) (indent : Int) (ss : List Statement) :
    indentations width indent (ss.map (Statement.map f))
      = (indentations width indent ss).map (Prod.map (Statement.map f) id) := by
  induction ss generalizing indent with
  | nil => rfl
  | cons s ss ih =>
    simp only [List.map_cons, indentations, s.closes_map hf, s.opens_map hf, ih, Prod.map, id]

/-- The statements of the groups of other tokens are indented as far. -/
theorem Group.indentations_map (hf : Alike f) (width : Nat) (ss : List Statement) :
    (ofStatements (ss.map (Statement.map f))).flatMap
        (fun g => SqlScript.indentations width 0 g.statements)
      = ((ofStatements ss).flatMap fun g => SqlScript.indentations width 0 g.statements).map
        (Prod.map (Statement.map f) id) := by
  rw [ofStatements_map hf, List.flatMap_map, List.map_flatMap]
  refine congrArg (List.flatMap · _) (funext fun g => ?_)
  exact SqlScript.indentations_map hf width 0 g.statements

/-- The statements of a script, with their indentations, are mapped to those of other tokens. -/
theorem Script.map_indentations (hf : Alike f) (width : Nat) (t : Text) :
    ((ofText t).indentations width).map (Prod.map (Statement.map f) id)
      = (Group.ofStatements (Statement.ofTokens ((Token.scan t).map f))).flatMap
        fun g => SqlScript.indentations width 0 g.statements := by
  rw [Statement.ofTokens_map hf, Group.indentations_map hf]
  rfl

end SqlScript
