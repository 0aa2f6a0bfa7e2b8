import SqlScript.Catalog.Reference
import SqlScript.Proofs.Script.Faithful

namespace SqlScript

/-!
# Scripts in other places

What a script says does not depend on where its tokens stand, and where its parts stand depends on
nothing else.

* `Statement.content` and `Group.content` — what statements and groups say, without their places;
* `Statement.reference?_map` and `Statement.changedName?_map` — the objects that a statement is about;
* `Statement.span_map_shift` and `Group.span_map_shift` — the places of statements and groups that
  are moved;
* `Script.Agree` — whether two scripts say the same, and `Script.agree_of_lexemes` — scripts with the
  same lexemes do.
-/

open Token (KeepsKeys KeepsLexemes)

variable {f : Token → Token}

/-! ### Parts of statements -/

namespace Token.KeepsKeys

/-- A mark between the parts of a name is known by its kind and its key. -/
theorem isQualifierMark (hf : KeepsKeys f) (t : Token) :
    (f t).isQualifierMark = t.isQualifierMark := by
  rw [Token.isQualifierMark, Token.spells, hf.kind, hf.key, ← Token.spells, ← Token.isQualifierMark]

/-- A word for the kind of an object is known by its kind and its key. -/
theorem isObjectTypeWord (hf : KeepsKeys f) (t : Token) :
    (f t).isObjectTypeWord = t.isObjectTypeWord := by
  rw [Token.isObjectTypeWord, hf.kind, hf.key, ← Token.isObjectTypeWord]

/-- The keys of a sequence of tokens are the same. -/
theorem map_key (hf : KeepsKeys f) (ts : List Token) :
    (ts.map f).map Token.key = ts.map Token.key := by
  rw [List.map_map]
  exact List.map_congr_left fun t _ => hf.key t

end Token.KeepsKeys

/-- Tokens with the same keys start with the same existence check. -/
theorem existenceCheck_map (hf : KeepsKeys f) (ts : List Token) :
    existenceCheck (ts.map f) = existenceCheck ts := by
  rw [existenceCheck, ← List.map_take, hf.map_key, existenceCheck]

/-- Tokens with the same keys start with the same words for the kind of an object. -/
theorem typeWords_map (hf : KeepsKeys f) (ts : List Token) :
    typeWords (ts.map f) = typeWords ts := by
  have htype : Token.isObjectTypeWord ∘ f = Token.isObjectTypeWord := funext hf.isObjectTypeWord
  rw [typeWords, List.takeWhile_map, htype, hf.map_key, typeWords]

/-- Tokens with the same keys declare the same kind of object. -/
theorem declaredType_map (hf : KeepsKeys f) (ts : List Token) :
    declaredType (ts.map f) = declaredType ts := by
  rw [declaredType, hf.map_key, declaredType]

/-! ### Objects -/

section

variable {β : Type}

/-- The parts of a name, as `n` takes them. -/
def ObjectName.parts (n : Text → β) (o : ObjectName) : Option β × Option β :=
  (o.schema.map n, o.name.map n)

/-- What a reference says, with names as `n` takes them. -/
def Reference.parts (n : Text → β) (r : Reference) : Verb × Text × Option β × Option β :=
  (r.verb, r.objectType, r.object.parts n)

/-- A reference is known from its parts. -/
theorem Reference.parts_id_injective {r q : Reference} (h : r.parts id = q.parts id) : r = q := by
  obtain ⟨verb, objectType, schema, name⟩ := r
  obtain ⟨verb', objectType', schema', name'⟩ := q
  simpa [parts, ObjectName.parts] using h

variable {n : Text → β} {ts : List Token}

/-- The same name is read of other tokens, as far as `n` takes their texts alike. -/
theorem ObjectName.read?_map (hf : KeepsKeys f) (hn : ∀ t ∈ ts, n (f t).text = n t.text) :
    (read? (ts.map f)).map (parts n) = (read? ts).map (parts n) := by
  match ts with
  | [] => rfl
  | [first] =>
    simp only [List.map_cons, List.map_nil, read?, hf.kind]
    split <;> simp [parts, hn]
  | [first, mark] =>
    simp only [List.map_cons, List.map_nil, read?, hf.kind]
    split <;> simp [parts, hn]
  | first :: mark :: second :: rest =>
    simp only [List.map_cons, read?, hf.kind, hf.isQualifierMark]
    split
    · rfl
    · split <;> simp [parts, hn]

namespace Statement

/-- The names behind the words for the kind are the same, read with names that the map keeps. -/
theorem namedReference?_map (hf : KeepsKeys f) (verb : Verb)
    (hn : ∀ t ∈ ts, n (f t).text = n t.text) :
    (namedReference? verb (ts.map f)).map (Reference.parts n)
      = (namedReference? verb ts).map (Reference.parts n) := by
  have htype : Token.isObjectTypeWord ∘ f = Token.isObjectTypeWord := funext hf.isObjectTypeWord
  unfold namedReference?
  simp only [typeWords_map hf, List.dropWhile_map, htype, existenceCheck_map hf, ← List.map_drop]
  generalize hrest : (ts.dropWhile Token.isObjectTypeWord).drop
    (existenceCheck (ts.dropWhile Token.isObjectTypeWord)) = rest
  have hmem : ∀ t ∈ rest, t ∈ ts := fun t ht => by
    rw [← hrest] at ht
    exact (List.dropWhile_sublist _).subset (List.mem_of_mem_drop ht)
  have hread := ObjectName.read?_map hf fun t ht => hn t (hmem t ht)
  generalize Text.join [' '] (typeWords ts) = objectType
  -- The name of a schema moves, whatever its parts are taken for.
  have hparts : ∀ o : ObjectName, Reference.parts n
      (if objectType = "SCHEMA".toList then ⟨verb, objectType, o.name, none⟩
        else ⟨verb, objectType, o⟩)
      = (verb, objectType, if objectType = "SCHEMA".toList then ((o.parts n).2, none)
          else o.parts n) := fun o => by
    split <;> rfl
  have hmapped : ∀ o? : Option ObjectName, (o?.map fun o : ObjectName =>
        (if objectType = "SCHEMA".toList then ⟨verb, objectType, o.name, none⟩
          else ⟨verb, objectType, o⟩ : Reference)).map (Reference.parts n)
      = (o?.map (ObjectName.parts n)).map fun p => (verb, objectType,
          if objectType = "SCHEMA".toList then (p.2, none) else p) := fun o? => by
    cases o? with
    | none => rfl
    | some o => exact congrArg some (hparts o)
  rw [hmapped, hmapped, hread]

/-- The reference with its kind in front is the same, read with names that the map keeps. -/
theorem declaredReference?_map (hf : KeepsKeys f) (hn : ∀ t ∈ ts, n (f t).text = n t.text) :
    (declaredReference? (ts.map f)).map (Reference.parts n)
      = (declaredReference? ts).map (Reference.parts n) := by
  cases ts with
  | nil => rfl
  | cons t rest =>
    simp only [List.map_cons, declaredReference?, hf.key, hf.kind, declaredType_map hf]
    split <;> simp [Reference.parts, ObjectName.parts, hn]

/-- The operands of a statement are tokens of it. -/
theorem mem_tokens_of_mem_operands {s : Statement} {t : Token} (h : t ∈ s.operands) :
    t ∈ s.tokens := by
  have hmem : t ∈ s.significant :=
    (splitLabel_suffix s.significant).subset (List.mem_of_mem_tail h)
  exact (List.mem_filter.mp hmem).1

/-- A statement of other tokens is about the same object, as far as `n` takes the texts of its
    tokens alike. -/
theorem parts_reference?_map (hf : KeepsKeys f) (s : Statement)
    (hn : ∀ t ∈ s.tokens, n (f t).text = n t.text) :
    (s.map f).reference?.map (Reference.parts n) = s.reference?.map (Reference.parts n) := by
  have hoperands : ∀ t ∈ s.operands, n (f t).text = n t.text := fun t ht =>
    hn t (mem_tokens_of_mem_operands ht)
  unfold reference?
  rw [s.verb?_map hf.alike, s.operands_map hf.alike]
  simp only [typeWords_map hf]
  split
  · exact namedReference?_map hf .CREATE hoperands
  · exact namedReference?_map hf .ALTER hoperands
  · split
    · exact declaredReference?_map hf hoperands
    · exact namedReference?_map hf .DECLARE hoperands
  · rfl

end Statement

end

namespace Statement

/-! ### Statements -/

variable (s : Statement)

/-- What a statement says: its verb, its label and its lexemes. -/
def content (s : Statement) : Option Verb × Option Text × List Lexeme :=
  (s.verb?, s.label?, s.tokens.map Token.lexeme)

/-- The label of a statement is the same. -/
theorem label?_map (hf : KeepsLexemes f) : (s.map f).label? = s.label? := by
  rw [label?, s.significant_map hf.alike, splitLabel_map hf.alike, label?]
  cases (splitLabel s.significant).1 with
  | none => rfl
  | some t => exact congrArg some (hf.text t)

/-- What is written in a statement is the same. -/
theorem content_map (hf : KeepsLexemes f) : (s.map f).content = s.content := by
  rw [content, s.verb?_map hf.alike, s.label?_map hf]
  exact congrArg (fun xs => (s.verb?, s.label?, xs)) (hf.map_lexeme s.tokens)

/-- What object a statement is about does not depend on where its tokens stand. -/
theorem reference?_map (hf : KeepsLexemes f) : (s.map f).reference? = s.reference? :=
  Option.map_injective (fun _ _ => Reference.parts_id_injective)
    (parts_reference?_map hf.keepsKeys s fun t _ => hf.text t)

/-- The name that a statement changes is the same. -/
theorem changedName?_map (hf : KeepsLexemes f) : (s.map f).changedName? = s.changedName? := by
  rw [changedName?, s.reference?_map hf, changedName?]

/-- A statement whose tokens are moved is moved as far. -/
theorem span_map_shift (n : Int) : (s.map (Token.shift n)).span = s.span.shift n := by
  unfold span
  simp only [map, List.head_map, List.getLast_map]
  rfl

/-- A statement that is moved is the same when its place is forgotten. -/
theorem map_unplaced_map (hf : KeepsLexemes f) : (s.map f).map .unplaced = s.map .unplaced := by
  unfold map
  simp only [Token.map_unplaced_eq_iff.mpr (hf.map_lexeme s.tokens)]

end Statement

/-! ### Groups -/

namespace Group

variable (g : Group)

/-- What a group says: what its statements say, and how it ends. -/
def content (g : Group) : List (Option Verb × Option Text × List Lexeme) × Ending :=
  (g.statements.map Statement.content, g.ending)

/-- What is written in a group is the same. -/
theorem content_map (hf : KeepsLexemes f) : (g.map f).content = g.content := by
  have hstatements : (g.statements.map (Statement.map f)).map Statement.content
      = g.statements.map Statement.content := by
    rw [List.map_map]
    exact List.map_congr_left fun s _ => s.content_map hf
  exact congrArg (·, g.ending) hstatements

/-- The first statement of a group has its place in the map. -/
theorem first_map : (g.map f).first = g.first.map f := List.head_map ..

/-- The last statement of a group has its place in the map. -/
theorem last_map : (g.map f).last = g.last.map f := List.getLast_map ..

/-- A group whose tokens are moved is moved as far. -/
theorem span_map_shift (n : Int) : (g.map (Token.shift n)).span = g.span.shift n := by
  rw [span, first_map, last_map, Statement.span_map_shift, Statement.span_map_shift]
  rfl

end Group

/-! ### Scripts -/

/-- Whether two scripts say the same, wherever their tokens stand. -/
structure Script.Agree (s s' : Script) : Prop where
  /-- They have the same lexemes. -/
  tokens : s.tokens.map Token.lexeme = s'.tokens.map Token.lexeme
  /-- Their statements have the same verbs, labels and lexemes. -/
  statements : s.statements.map Statement.content = s'.statements.map Statement.content
  /-- Their groups have the same statements, and end in the same ways. -/
  groups : s.groups.map Group.content = s'.groups.map Group.content
  /-- They are about the same objects. -/
  references : s.references.map (·.reference) = s'.references.map (·.reference)
  /-- They change the same objects. -/
  changedNames : s.changedNames = s'.changedNames

/-- Sequences that are the same under a mapping are the same under what does not depend on it. -/
theorem map_eq_map_of_comp {α β γ : Type} {u : α → β} {v : β → γ} {w : α → γ}
    (hw : ∀ x, v (u x) = w x) {xs ys : List α} (h : xs.map u = ys.map u) : xs.map w = ys.map w := by
  have hcomp : v ∘ u = w := funext hw
  rw [← hcomp, ← List.map_map, h, List.map_map]

namespace Script

variable {t t' : Text}

/-- The names that a script changes are found from whatever tells those that its statements change. -/
theorem changedNames_eq {β : Type} (f : Statement → β) (g : β → Option Text)
    (h : ∀ s, g (f s) = s.changedName?) (s : Script) : s.changedNames
      = Text.listed (((s.statements.map f).filterMap g).filter fun k => !k.isEmpty) := by
  rw [List.filterMap_map, show g ∘ f = Statement.changedName? from funext h]
  rfl

/-- A script has the statements of all tokens with its lexemes, but for their places. -/
theorem map_statements_of_tokens {ts : List Token} (h : t.lexemes = ts.map Token.lexeme) :
    (ofText t).statements.map (Statement.map .unplaced)
      = (Statement.ofTokens ts).map (Statement.map .unplaced) := by
  have hunplaced := Token.keepsLexemes_unplaced.alike
  calc (ofText t).statements.map (Statement.map .unplaced)
      = Statement.ofTokens ((Token.scan t).map .unplaced) :=
        (Statement.ofTokens_map hunplaced _).symm
    _ = Statement.ofTokens (ts.map .unplaced) := by rw [Token.map_unplaced_eq_iff.mpr h]
    _ = (Statement.ofTokens ts).map (Statement.map .unplaced) := Statement.ofTokens_map hunplaced _

/-- Scripts with the same lexemes have the same statements, but for their places. -/
theorem map_statements_of_lexemes (h : t.lexemes = t'.lexemes) :
    (ofText t).statements.map (Statement.map .unplaced)
      = (ofText t').statements.map (Statement.map .unplaced) :=
  map_statements_of_tokens h

/-- Scripts with the same lexemes say the same. -/
theorem agree_of_lexemes (h : t.lexemes = t'.lexemes) : Agree (ofText t) (ofText t') := by
  have hkeeps := Token.keepsLexemes_unplaced
  have hstatements := map_statements_of_lexemes h
  have hgroups : (ofText t).groups.map (Group.map .unplaced)
      = (ofText t').groups.map (Group.map .unplaced) := by
    have hgroup : ∀ u, (ofText u).groups.map (Group.map .unplaced)
        = Group.ofStatements ((ofText u).statements.map (Statement.map .unplaced)) :=
      fun u => (Group.ofStatements_map hkeeps.alike _).symm
    rw [hgroup, hgroup, hstatements]
  have hreferences := map_eq_map_of_comp (fun s => s.reference?_map hkeeps) hstatements
  have hnames := map_eq_map_of_comp (fun s => s.changedName?_map hkeeps) hstatements
  refine ⟨h, map_eq_map_of_comp (fun s => s.content_map hkeeps) hstatements,
    map_eq_map_of_comp (fun g => g.content_map hkeeps) hgroups, ?_, ?_⟩
  · have hlocated : ∀ u, (ofText u).references.map (·.reference)
        = ((ofText u).statements.map Statement.reference?).filterMap id := fun u => by
      rw [references, List.map_filterMap, List.filterMap_map]
      refine List.filterMap_congr fun s _ => ?_
      show s.located?.map (·.reference) = s.reference?
      rw [Statement.located?, Option.map_map]
      exact Option.map_id'
    rw [hlocated, hlocated, hreferences]
  · have hchanged := changedNames_eq Statement.changedName? id fun _ => rfl
    rw [hchanged, hchanged, hnames]

end Script

end SqlScript
