import SqlScript.Proofs.Script.Place
import SqlScript.Proofs.Script.Split
import SqlScript.Statement.Schema

namespace SqlScript

/-!
# Scripts in another case

What a script says does not depend on the case of its words, unless they are delimited. All that is
asked about a script is read of the words in upper case, and names are compared as the database
keeps them.

* `Token.SameButCase` — whether two tokens are the same but for the case of a word;
* `Token.folded` — a token with its word in upper case, of which a script is read alike;
* `Token.IsRead.stored_folded` — the database keeps the same name for it;
* `Statement.traits` — what is told of a statement;
* `Script.agreeButCase_of_sameButCase` — scripts whose tokens are the same but for the case of words
  have the same statements, groups and objects.
-/

open Token (KeepsKeys Faithful)

/-! ### Names -/

/-- A name without double quotes is kept in upper case. -/
theorem Identifier.stored_of_not_mem {t : Text} (h : delimiter ∉ t) :
    stored t = Unicode.upper t := by
  refine if_neg fun hdelimited => h ?_
  rw [isDelimited, Bool.and_eq_true, Bool.and_eq_true, beq_iff_eq] at hdelimited
  exact List.mem_of_mem_head? hdelimited.1.2

/-- Whether a name is empty, and the name as the database keeps it. -/
def Identifier.named (t : Text) : Bool × Text := (t.isEmpty, stored t)

/-- Names that are kept alike are kept alike without the empty ones. -/
theorem Identifier.map_stored_of_named {x y : Option Text} (h : x.map named = y.map named) :
    x.map stored = y.map stored ∧
      (x.filter fun t => !t.isEmpty).map stored = (y.filter fun t => !t.isEmpty).map stored := by
  cases x with
  | none =>
    obtain rfl := Option.map_eq_none_iff.mp h.symm
    exact ⟨rfl, rfl⟩
  | some t =>
    obtain ⟨u, rfl, hnamed⟩ := Option.map_eq_some_iff.mp h.symm
    obtain ⟨hempty, hstored⟩ := Prod.mk.inj hnamed
    refine ⟨congrArg some hstored.symm, ?_⟩
    rw [Option.filter_some, Option.filter_some, hempty]
    split
    · exact congrArg some hstored.symm
    · rfl

/-- The name of an object is known from its parts, as far as these are kept. -/
theorem Reference.storedName?_congr {r q : Reference}
    (h : r.parts Identifier.named = q.parts Identifier.named) : r.storedName? = q.storedName? := by
  simp only [parts, ObjectName.parts, Prod.mk.injEq] at h
  obtain ⟨-, hobjectType, hschema, hname⟩ := h
  have hnames : ∀ g : Text → Text, (r.object.name.map fun t => g (Identifier.stored t))
      = q.object.name.map fun t => g (Identifier.stored t) := fun g => by
    have hmapped := congrArg (Option.map g) (Identifier.map_stored_of_named hname).1
    rwa [Option.map_map, Option.map_map] at hmapped
  unfold storedName?
  simp only [hobjectType, (Identifier.map_stored_of_named hschema).2]
  split
  · rfl
  · cases (q.object.schema.filter fun t => !t.isEmpty).map Identifier.stored with
    | none => exact hnames id
    | some schema => exact hnames (schema ++ '.' :: ·)

/-- What a statement changes is known from the parts of its reference. -/
theorem Statement.changedName?_congr {s q : Statement}
    (h : s.reference?.map (Reference.parts Identifier.named)
      = q.reference?.map (Reference.parts Identifier.named)) : s.changedName? = q.changedName? := by
  unfold changedName?
  cases hs : s.reference? with
  | none =>
    rw [hs] at h
    rw [Option.map_eq_none_iff.mp h.symm]
  | some r =>
    rw [hs] at h
    obtain ⟨r', hr', hparts⟩ := Option.map_eq_some_iff.mp h.symm
    have hverb : r'.verb = r.verb := congrArg Prod.fst hparts
    simp only [hr', Option.bind_some, hverb, Reference.storedName?_congr hparts]

/-! ### Words in upper case -/

/-- A word that was read has no double quotes in it. -/
theorem Lexeme.Form.not_mem_delimiter {x : Lexeme} {rest : Text} (h : x.Form rest)
    (hk : x.kind.isBareWord = true) : Identifier.delimiter ∉ x.text := by
  cases h with
  | word hfirst hmore =>
    intro hmem
    rcases List.mem_cons.mp hmem with heq | hmem
    · rw [← heq] at hfirst
      exact absurd hfirst (by decide)
    · exact absurd (List.all_eq_true.mp hmore _ hmem) (by decide)
  | @punctuation c k rest hp =>
    rw [punctuationKind?_eq_some_iff] at hp
    cases k <;> simp_all [Kind.isBareWord, Kind.mark?]
  | _ => simp [Kind.isBareWord] at hk

namespace Token

/-- Whether the tokens are the same wherever they stand, but for the case of a word that is not
    delimited. -/
structure SameButCase (t u : Token) : Prop where
  kind : t.kind = u.kind
  key : t.kind.isBareWord = true → t.key = u.key
  text : t.kind.isBareWord = false → t.text = u.text

/-- The token with its word in upper case, and its place forgotten. -/
def folded (t : Token) : Token := ⟨t.kind, if t.kind.isBareWord then t.key else t.text, ⟨0, 0⟩⟩

/-- A token that is no bare word is written as it is. -/
theorem text_folded {t : Token} (hk : t.kind.isBareWord = false) : t.folded.text = t.text := by
  rw [folded, hk]
  rfl

/-- A bare word is written as its key. -/
theorem text_folded_of_isBareWord {t : Token} (hk : t.kind.isBareWord = true) :
    t.folded.text = t.key := by
  rw [folded, hk]
  rfl

/-- Two tokens are folded to the same one when they differ in nothing but the case of a bare
    word. -/
theorem folded_eq_iff {t u : Token} : t.folded = u.folded ↔ t.SameButCase u := by
  constructor
  · intro h
    have hkind : t.kind = u.kind := show t.folded.kind = u.folded.kind by rw [h]
    have htext := congrArg Token.text h
    refine ⟨hkind, fun hk => ?_, fun hk => ?_⟩
    · rwa [text_folded_of_isBareWord hk, text_folded_of_isBareWord (hkind ▸ hk)] at htext
    · rwa [text_folded hk, text_folded (hkind ▸ hk)] at htext
  · rintro ⟨hkind, hkey, htext⟩
    unfold folded
    rw [← hkind]
    split
    · rename_i hk
      rw [hkey hk]
    · rename_i hk
      rw [htext ((Bool.not_eq_true _).mp hk)]

instance (t u : Token) : Decidable (t.SameButCase u) := decidable_of_iff _ folded_eq_iff

/-- Sequences of tokens that are the same but for the case of words are the same in upper case. -/
theorem map_folded_of_sameButCase {ts us : List Token} (h : List.Forall₂ SameButCase ts us) :
    ts.map folded = us.map folded := by
  induction h with
  | nil => rfl
  | cons hsame _ ih => rw [List.map_cons, List.map_cons, folded_eq_iff.mpr hsame, ih]

/-- Folding changes nothing but the case. -/
theorem recased_folded (t : Token) : Recased t.text t.folded.text := by
  unfold folded
  split
  · exact Recased.upper t.text
  · exact Recased.refl t.text

/-- Folding keeps the kind and the key of every token, and with them all that is read from those. -/
theorem keepsKeys_folded : KeepsKeys folded where
  kind _ := rfl
  key t := by
    unfold folded
    split
    · exact Unicode.upper_upper t.text
    · rfl

/-- A script whose words are in upper case is laid out as before. -/
theorem faithful_folded : Faithful folded where
  toAlike := keepsKeys_folded.alike
  isLineComment t := by
    cases hk : t.kind.isBareWord with
    | true =>
      have hcomment := not_isComment_of_isBareWord hk
      rw [isLineComment, show t.folded.isComment = false from hcomment, isLineComment, hcomment]
      rfl
    | false =>
      rw [isLineComment, text_folded hk]
      rfl
  recased t _ := recased_folded t
  span _ := rfl

/-- The database keeps the same name for a word in upper case. -/
theorem IsRead.stored_folded {t : Token} (h : t.IsRead) :
    Identifier.stored t.folded.text = Identifier.stored t.text := by
  cases hk : t.kind.isBareWord with
  | false => rw [text_folded hk]
  | true =>
    obtain ⟨rest, hread⟩ := h
    have htext : Identifier.delimiter ∉ t.text := hread.form.not_mem_delimiter hk
    have hkey : Identifier.delimiter ∉ t.key := fun hmem => htext <| by
      obtain ⟨c, hc, hupper⟩ := List.mem_flatMap.mp hmem
      have heq := Unicode.eq_of_mem_upperChar hupper (by decide) (by decide)
      exact heq ▸ hc
    rw [text_folded_of_isBareWord hk, Identifier.stored_of_not_mem hkey,
      Identifier.stored_of_not_mem htext]
    exact Unicode.upper_upper t.text

/-- A folded token names what it named. -/
theorem IsRead.named_folded {t : Token} (h : t.IsRead) :
    Identifier.named t.folded.text = Identifier.named t.text := by
  have hempty : t.folded.text.isEmpty = t.text.isEmpty := by
    rw [Bool.eq_iff_iff, List.isEmpty_iff, List.isEmpty_iff]
    exact (recased_folded t).eq_nil_iff
  rw [Identifier.named, hempty, h.stored_folded]
  rfl

/-- A folded token names the schema that it named. -/
theorem IsRead.schemaName_folded {t : Token} (h : t.IsRead) :
    t.folded.schemaName = t.schemaName := by
  rw [schemaName, schemaName, show t.folded.kind = t.kind from rfl, h.stored_folded]
  split
  · rename_i hk
    rw [text_folded (by rw [hk]; rfl)]
  · rfl

end Token

/-! ### Statements -/

/-- Leaving out an optional token leaves a suffix. -/
theorem dropOptional_suffix (p : Token → Bool) (ts : List Token) : dropOptional p ts <:+ ts := by
  cases ts with
  | nil => exact List.suffix_refl _
  | cons t ts =>
    rw [dropOptional]
    split
    · exact List.suffix_cons t ts
    · exact List.suffix_refl _

/-- An optional token can be left out before a map that keeps it optional or behind it. -/
theorem dropOptional_map {f : Token → Token} {p : Token → Bool} (hp : ∀ t, p (f t) = p t)
    (ts : List Token) : dropOptional p (ts.map f) = (dropOptional p ts).map f := by
  cases ts with
  | nil => rfl
  | cons t ts =>
    rw [List.map_cons, dropOptional, dropOptional, hp]
    split <;> rfl

namespace Statement

variable (s : Statement)

/-- A statement of other tokens switches to the same schema, as far as these name the same ones. -/
theorem newSchema?_map {f : Token → Token} (hf : KeepsKeys f)
    (hname : ∀ t ∈ s.tokens, (f t).schemaName = t.schemaName) :
    (s.map f).newSchema? = s.newSchema? := by
  unfold newSchema?
  rw [s.verb?_map hf.alike, s.significant_map hf.alike, ← List.map_tail,
    dropOptional_map fun t => hf.spells t _]
  split
  · cases hwords : dropOptional (·.spells "CURRENT") s.significant.tail with
    | nil => rfl
    | cons t rest =>
      have hmem : ∀ u ∈ dropOptional (·.kind == .equals) rest, u ∈ s.tokens := fun u hu => by
        have hrest : u ∈ t :: rest :=
          List.mem_cons_of_mem t ((dropOptional_suffix _ rest).subset hu)
        rw [← hwords] at hrest
        have htail := (dropOptional_suffix _ _).subset hrest
        exact (List.mem_filter.mp (List.mem_of_mem_tail htail)).1
      simp only [List.map_cons, hf.spells]
      rw [dropOptional_map fun u => by rw [hf.kind], List.head?_map, Option.map_map]
      split
      · refine Option.map_congr fun u hu => ?_
        exact hname u (hmem u (List.mem_of_mem_head? hu))
      · rfl
  · rfl

/-- What is told of a statement, whatever the case of its words. -/
structure Traits where
  length : Nat
  verb? : Option Verb
  isLabelled : Bool
  opener? : Option Opener
  closesCompound : Bool
  closesConditional : Bool
  /-- The object that the statement is about, with its names as the database keeps them. -/
  reference? : Option (Verb × Text × Option Text × Option Text)
  changedName? : Option Text
  newSchema? : Option Text
deriving DecidableEq

/-- What is told of the statement. -/
def traits (s : Statement) : Traits where
  length := s.tokens.length
  verb? := s.verb?
  isLabelled := s.label?.isSome
  opener? := s.opener?
  closesCompound := s.closesCompound
  closesConditional := s.closesConditional
  reference? := s.reference?.map (Reference.parts Identifier.stored)
  changedName? := s.changedName?
  newSchema? := s.newSchema?

/-- A statement has a label when the mapped one has. -/
theorem isSome_label?_map {f : Token → Token} (hf : Token.Alike f) :
    (s.map f).label?.isSome = s.label?.isSome := by
  rw [label?, s.significant_map hf, splitLabel_map hf, label?]
  simp only [Option.isSome_map]

/-- The same is told of a statement whose words are in upper case. -/
theorem traits_map_folded (hread : ∀ t ∈ s.tokens, t.IsRead) :
    (s.map Token.folded).traits = s.traits := by
  have hkeys := Token.keepsKeys_folded
  have halike := hkeys.alike
  have hlength : (s.map Token.folded).tokens.length = s.tokens.length := List.length_map ..
  have hreference := parts_reference?_map hkeys s fun t ht => (hread t ht).stored_folded
  have hchanged := changedName?_congr
    (parts_reference?_map hkeys s fun t ht => (hread t ht).named_folded)
  have hschema := s.newSchema?_map hkeys fun t ht => (hread t ht).schemaName_folded
  rw [traits, hlength, s.verb?_map halike, s.isSome_label?_map halike, s.opener?_map halike,
    s.closesCompound_map halike, s.closesConditional_map halike, hreference, hchanged, hschema]
  rfl

end Statement

/-! ### Scripts -/

/-- What is told of a group, whatever the case of its words: what is told of its statements, and how
    it ends. -/
def Group.traits (g : Group) : List Statement.Traits × Ending :=
  (g.statements.map Statement.traits, g.ending)

/-- Whether two scripts say the same, but for the case of their words. -/
structure Script.AgreeButCase (s s' : Script) : Prop where
  /-- The same is told of their statements. -/
  statements : s.statements.map Statement.traits = s'.statements.map Statement.traits
  /-- Their groups have as many statements, and end in the same ways. -/
  groups : s.groups.map Group.traits = s'.groups.map Group.traits
  /-- They are about the same objects, with names as the database keeps them. -/
  references : s.references.map (·.reference.parts Identifier.stored)
    = s'.references.map (·.reference.parts Identifier.stored)
  /-- They change the same objects. -/
  changedNames : s.changedNames = s'.changedNames

namespace Script

/-- The objects that a script is about are told of its statements. -/
theorem map_references (s : Script) : s.references.map (·.reference.parts Identifier.stored)
    = (s.statements.map Statement.traits).filterMap (·.reference?) := by
  rw [references, List.map_filterMap, List.filterMap_map]
  refine List.filterMap_congr fun q _ => ?_
  show (q.located?.map _) = q.reference?.map _
  rw [Statement.located?, Option.map_map]
  rfl

/-- The same is told of the statements and groups of a script whose words are in upper case. -/
theorem map_traits_folded (t : Text) :
    (Statement.ofTokens ((Token.scan t).map .folded)).map Statement.traits
        = (ofText t).statements.map Statement.traits ∧
      (Group.ofStatements (Statement.ofTokens ((Token.scan t).map .folded))).map Group.traits
        = (ofText t).groups.map Group.traits := by
  have halike := Token.keepsKeys_folded.alike
  have htraits : ∀ s ∈ (ofText t).statements, (s.map .folded).traits = s.traits := fun s hs =>
    s.traits_map_folded fun u hu => Token.isRead_of_mem_scan (Statement.mem_of_mem_tokens hs hu)
  rw [Statement.ofTokens_map halike, Group.ofStatements_map halike, List.map_map, List.map_map]
  refine ⟨List.map_congr_left htraits, List.map_congr_left fun g hg => ?_⟩
  have hstatements : ∀ s ∈ g.statements, s ∈ (ofText t).statements := fun s hs => by
    rw [← show (ofText t).groups.flatMap (·.statements) = (ofText t).statements from
      Group.flatMap_ofStatements _]
    exact List.mem_flatMap.mpr ⟨g, hg, hs⟩
  refine congrArg (·, g.ending) ?_
  show (g.statements.map (Statement.map .folded)).map Statement.traits = _
  rw [List.map_map]
  exact List.map_congr_left fun s hs => htraits s (hstatements s hs)

/-- Scripts whose tokens are the same but for the case of words say the same. -/
theorem agreeButCase_of_sameButCase {t t' : Text}
    (h : List.Forall₂ Token.SameButCase (Token.scan t) (Token.scan t')) :
    AgreeButCase (ofText t) (ofText t') := by
  obtain ⟨hstatements, hgroups⟩ := map_traits_folded t
  obtain ⟨hstatements', hgroups'⟩ := map_traits_folded t'
  rw [Token.map_folded_of_sameButCase h] at hstatements hgroups
  have hsame := hstatements.symm.trans hstatements'
  refine ⟨hsame, hgroups.symm.trans hgroups', ?_, ?_⟩
  · rw [map_references, map_references, hsame]
  · have hchanged := changedNames_eq Statement.traits (·.changedName?) fun _ => rfl
    rw [hchanged, hchanged, hsame]

end Script

end SqlScript
