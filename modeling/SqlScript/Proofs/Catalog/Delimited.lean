import SqlScript.Proofs.Script.Place
import SqlScript.Proofs.Script.Reading
import SqlScript.Proofs.Statement.Reference
import SqlScript.Proofs.Token.Enclosed

namespace SqlScript

open Identifier (delimiter)

/-!
# Delimited names

Every text can be a name, when it is written between double quotes with the quotes in it doubled. What is
read of the name is one token, and what the database keeps of the token is the text.

* `Lexeme.readBefore_enclose` — a delimited name is read as one lexeme;
* `Identifier.stored_enclose` — the database keeps the text that is delimited;
* `Reference.storedName?_enclose` — an object is known by the texts that its names delimit;
* `Script.changedNames_creation` — the name that a script changes when it creates a table.
-/

/-! ### Names -/

/-- A delimited name is read as one lexeme, unless another delimiter follows it. -/
theorem Lexeme.readBefore_enclose (t rest : Text) (h : rest.head? ≠ some delimiter) :
    ReadBefore ⟨.delimited, Text.enclose delimiter t⟩ rest :=
  (Form.delimited (quotedRest_eq_length_iff.mpr (.closed h))).readBefore

/-- A delimited name is read as one token where it stands alone. -/
theorem Token.scan_enclose (t : Text) :
    scan (Text.enclose delimiter t) = [placed .delimited (Text.enclose delimiter t) 0] :=
  scan_of_readBefore_nil (Lexeme.readBefore_enclose t [] (by simp))

/-- A name that is written between delimiters is delimited. -/
theorem Identifier.isDelimited_enclose (t : Text) : isDelimited (Text.enclose delimiter t) = true := by
  simp [isDelimited, Text.enclose, List.getLast?_cons]

/-- The database keeps the text that is delimited. -/
theorem Identifier.stored_enclose (t : Text) : stored (Text.enclose delimiter t) = t := by
  have hinner : inner (Text.enclose delimiter t) = Text.double delimiter t := by
    rw [inner, Text.enclose, List.drop_one, List.tail_cons, List.dropLast_concat]
  rw [stored, if_pos (isDelimited_enclose t), hinner, Text.undouble_double]

/-- An object that is no schema is known by the texts that its names delimit. -/
theorem Reference.storedName?_enclose (verb : Verb) (objectType schema name : Text)
    (h : objectType ≠ "SCHEMA".toList) :
    storedName? ⟨verb, objectType, some (Text.enclose delimiter schema),
        some (Text.enclose delimiter name)⟩
      = some (schema ++ '.' :: name) := by
  have hkept : (some (Text.enclose delimiter schema)).filter (fun t => !t.isEmpty)
      = some (Text.enclose delimiter schema) := rfl
  simp only [storedName?, if_neg h, hkept, Option.map_some, Identifier.stored_enclose]

/-- A qualified name is read as its parts and the dot between them. -/
theorem Text.lexemes_qualified (schema name rest : Text) (h : rest.head? ≠ some delimiter) :
    lexemes (enclose delimiter schema ++ '.' :: (enclose delimiter name ++ rest))
      = ⟨.delimited, enclose delimiter schema⟩ :: ⟨.dot, ['.']⟩ ::
        ⟨.delimited, enclose delimiter name⟩ :: lexemes rest := by
  have hdot : Lexeme.ReadBefore ⟨.dot, ['.']⟩ (enclose delimiter name ++ rest) := by
    have hproper : Lexeme.Proper ⟨.dot, ['.']⟩ := by decide +kernel
    refine hproper.of_admits fun c hc => ?_
    obtain rfl : delimiter = c := by simpa [enclose] using hc
    decide +kernel
  calc lexemes (enclose delimiter schema ++ '.' :: (enclose delimiter name ++ rest))
      = ⟨.delimited, enclose delimiter schema⟩ :: lexemes ('.' :: (enclose delimiter name ++ rest)) :=
        lexemes_append (Lexeme.readBefore_enclose schema _ (by simp [delimiter]))
    _ = ⟨.delimited, enclose delimiter schema⟩ :: ⟨.dot, ['.']⟩ ::
          lexemes (enclose delimiter name ++ rest) := congrArg _ (lexemes_append hdot)
    _ = ⟨.delimited, enclose delimiter schema⟩ :: ⟨.dot, ['.']⟩ ::
          ⟨.delimited, enclose delimiter name⟩ :: lexemes rest := by
        rw [← lexemes_append (Lexeme.readBefore_enclose name rest h)]

/-! ### Statements -/

/-- Whether the kinds close the parentheses that they open, of which `parens` are open before the first
    one, with no semicolon outside of all parentheses. -/
def Kind.isBalanced (parens : Nat) : List Kind → Bool
  | [] => parens == 0
  | .openParen :: ks => isBalanced (parens + 1) ks
  | .closeParen :: ks => 0 < parens && isBalanced (parens - 1) ks
  | .semicolon :: ks => 0 < parens && isBalanced parens ks
  | _ :: ks => isBalanced parens ks

/-- Where no word matters, the kinds tell whether tokens can be part of a statement. -/
theorem Token.isInert_eq_isBalanced {ts : List Token} (parens : Nat)
    (h : ∀ t ∈ ts, ∀ w ∈ ["CASE", "END", "BEGIN"], t.spells w = false) :
    isInert [] parens 0 ts = Kind.isBalanced parens (ts.map (·.kind)) := by
  induction ts generalizing parens with
  | nil => simp [isInert, Kind.isBalanced]
  | cons t ts ih =>
    obtain ⟨ht, hts⟩ := List.forall_mem_cons.mp h
    have hnone : isOneOf [] t.key = false := rfl
    rw [List.map_cons]
    by_cases hopen : t.kind = .openParen
    · rw [isInert, hopen]
      exact ih (parens + 1) hts
    by_cases hclose : t.kind = .closeParen
    · rw [isInert, hclose]
      exact congrArg (decide (0 < parens) && ·) (ih (parens - 1) hts)
    -- Between parentheses nothing is asked of a token, and outside of them that it is no semicolon.
    rw [isInert_cons ⟨hopen, hclose⟩, ht "CASE" (by simp), ht "END" (by simp), ht "BEGIN" (by simp),
      hnone]
    rcases Nat.eq_zero_or_pos parens with rfl | hpos
    · simp only [Nat.lt_irrefl, if_false, Bool.false_eq_true, ih 0 hts]
      cases hk : t.kind <;> simp_all [Kind.isBalanced]
    · rw [if_pos hpos, ih parens hts]
      cases hk : t.kind <;> simp_all [Kind.isBalanced]

/-- The tokens of a sentence make one statement. -/
theorem Statement.ofTokens_of_isSentence {s : Statement} (hs : IsSentence s.tokens)
    (hread : ∀ t ∈ s.tokens, t.IsRead) : ofTokens s.tokens = [s] := by
  have hsplit := Splitter.split_head .none hs.part hs.verb hread hs.part.noComment []
  rw [List.nil_append, List.append_nil, List.nil_append] at hsplit
  rw [ofTokens, hsplit]
  exact Splitter.finish_reading s

/-- The text of a script that creates a table of the given name in the given schema. -/
def Text.creation (schema name : Text) : Text :=
  "CREATE TABLE ".toList ++ (enclose delimiter schema ++ '.' ::
    (enclose delimiter name ++ " (A INT)".toList))

/-- The statement of this script, with the places of its tokens forgotten. -/
def Statement.creation (schema name : Text) : Statement where
  tokens := List.map Token.ofLexeme
    [⟨.verb, "CREATE".toList⟩, ⟨.word, "TABLE".toList⟩, ⟨.delimited, Text.enclose delimiter schema⟩,
     ⟨.dot, ['.']⟩, ⟨.delimited, Text.enclose delimiter name⟩, ⟨.openParen, ['(']⟩, ⟨.word, ['A']⟩,
     ⟨.word, "INT".toList⟩, ⟨.closeParen, [')']⟩]
  nonempty := by simp

/-- A lexeme in front of a space is read first, and then what is behind the space. -/
theorem Text.lexemes_append_space {x : Lexeme} (hx : x.Proper) (hspace : x.admits ' ' = true)
    (t : Text) : lexemes (x.text ++ ' ' :: t) = x :: lexemes t := by
  rw [lexemes_append (hx.of_admits (by simpa using hspace))]
  exact congrArg _ (lexemes_blank_append (g := [' ']) (by decide) t)

/-- The text is read as the tokens of the statement. -/
theorem Text.lexemes_creation (schema name : Text) :
    (creation schema name).lexemes = (Statement.creation schema name).tokens.map Token.lexeme := by
  have hcreate := lexemes_append_space (x := ⟨.verb, "CREATE".toList⟩) (by decide +kernel)
    (by decide +kernel)
  have htable := lexemes_append_space (x := ⟨.word, "TABLE".toList⟩) (by decide +kernel)
    (by decide +kernel)
  have hcolumn : lexemes " (A INT)".toList = [⟨.openParen, ['(']⟩, ⟨.word, ['A']⟩,
      ⟨.word, "INT".toList⟩, ⟨.closeParen, [')']⟩] := by decide +kernel
  have hname := lexemes_qualified schema name " (A INT)".toList (by decide)
  rw [hcolumn] at hname
  exact (hcreate _).trans (congrArg _ ((htable _).trans (congrArg _ hname)))

namespace Statement

variable {schema name : Text} {t : Token}

/-- The tokens of the statement are read somewhere. -/
theorem isRead_of_mem_creation (ht : t ∈ (creation schema name).tokens) : t.IsRead := by
  have hmem : t.lexeme ∈ (Text.creation schema name).lexemes := by
    rw [Text.lexemes_creation]
    exact List.mem_map_of_mem ht
  obtain ⟨u, hu, hlexeme⟩ := List.mem_map.mp hmem
  have hread := Token.isRead_of_mem_scan hu
  rwa [Token.IsRead, hlexeme] at hread

/-- The words of the statement stand for nothing that opens or closes, whatever the names are. -/
theorem spells_creation (ht : t ∈ (creation schema name).tokens) {w : String}
    (hw : w ∈ ["CASE", "END", "BEGIN", "ATOMIC", "IF"]) : t.spells w = false := by
  let words : List Token := List.map .ofLexeme
    [⟨.verb, "CREATE".toList⟩, ⟨.word, "TABLE".toList⟩, ⟨.word, ['A']⟩, ⟨.word, "INT".toList⟩]
  have hwords : ∀ u ∈ words, ∀ v ∈ ["CASE", "END", "BEGIN", "ATOMIC", "IF"],
      u.spells v = false := by decide +kernel
  have hreserved : ∀ v ∈ ["CASE", "END", "BEGIN", "ATOMIC", "IF"], isReserved v = true := by decide
  cases hk : t.kind.isBareWord with
  | true =>
    have hmem : t ∈ (creation schema name).tokens.filter (·.kind.isBareWord) :=
      List.mem_filter.mpr ⟨ht, hk⟩
    exact hwords t hmem w hw
  | false =>
    -- The names are among the tokens that are no words.
    exact (isRead_of_mem_creation ht).spells_eq_false_of_kind hk (hreserved w hw)

/-- The statement that creates an object has no comments. -/
theorem noComment_creation (ht : t ∈ (creation schema name).tokens) : t.isComment = false := by
  revert t
  simp [creation, Token.ofLexeme, Token.isComment]

/-- The statement that creates an object has no label. -/
theorem governed_creation (schema name : Text) :
    governed (creation schema name).tokens = (creation schema name).tokens :=
  governed_of_not_word (t := .ofLexeme ⟨.verb, _⟩) Kind.noConfusion fun _ => noComment_creation

/-- The verb of the statement that creates an object is `CREATE`. -/
theorem verb?_creation (schema name : Text) : (creation schema name).verb? = some .CREATE := by
  rw [verb?, governingVerb?, governing?, governed_creation]
  show Verb.ofKey? (Unicode.upper "CREATE".toList) = some .CREATE
  decide +kernel

/-- The statement that creates an object is one of the grammar, which opens and closes nothing. -/
theorem isSentence_creation (schema name : Text) : IsSentence (creation schema name).tokens where
  part := {
    noComment := fun _ => noComment_creation
    inert := (Token.isInert_eq_isBalanced 0 fun _ ht _ hw =>
      spells_creation ht (List.mem_append_left ["ATOMIC", "IF"] hw)).trans rfl
    noConditionEnd := by
      refine List.any_eq_false.mpr fun p hp => ?_
      rw [spells_creation (List.of_mem_zip hp).1 (by simp), Bool.false_and]
      exact Bool.false_ne_true }
  verb := by
    intro v hv
    obtain rfl : Verb.CREATE = v := Option.some.inj ((verb?_creation schema name).symm.trans hv)
    decide
  notAtomic := fun u hu => spells_creation (List.mem_of_mem_head? hu) (by simp)
  notNotAtomic := fun u v rest h _ => spells_creation (by rw [h]; simp) (by simp)

/-- The statement is about the table of the two names, as they are written. -/
theorem reference?_creation (schema name : Text) :
    (creation schema name).reference? = some ⟨.CREATE, "TABLE".toList,
      some (Text.enclose delimiter schema), some (Text.enclose delimiter name)⟩ := by
  let table : Token := .ofLexeme ⟨.word, "TABLE".toList⟩
  let rest : List Token := (creation schema name).tokens.drop 2
  have hoperands : (creation schema name).operands = [table] ++ ([] ++ rest) := by
    rw [operands, governed_creation]
    rfl
  have hkinds : IsTypePhrase [table] ([] ++ rest) := {
    words := by decide +kernel
    longest := fun u hu => by
      -- A delimited name is no such word, whatever it spells.
      obtain rfl : Token.ofLexeme ⟨.delimited, Text.enclose delimiter schema⟩ = u := Option.some.inj hu
      rfl }
  have hcheck : IsCheckPhrase [] rest := isCheckPhrase_nil fun u hu =>
    spells_creation (List.mem_of_mem_drop (List.mem_of_mem_head? hu)) (by simp)
  have hname : ObjectName.IsNamed rest
      (some ⟨some (Text.enclose delimiter schema), some (Text.enclose delimiter name)⟩) :=
    .qualified rfl rfl rfl
  have htype : objectTypeOf [table] = "TABLE".toList := by decide +kernel
  rw [reference?_eq_namedReference? (verb?_creation schema name) (.inl rfl), hoperands,
    namedReference?_eq (.name hkinds hcheck hname), Option.map_some, Reference.ofName, htype,
    if_neg (by decide)]

/-- The statement changes the table that is known by the two texts. -/
theorem changedName?_creation (schema name : Text) :
    (creation schema name).changedName? = some (schema ++ '.' :: name) := by
  rw [changedName?, reference?_creation]
  exact Reference.storedName?_enclose .CREATE "TABLE".toList schema name (by decide)

end Statement

/-! ### Scripts -/

namespace Script

/-- A name that is written between delimiters is read as one token, what the database keeps of it is the
    text that it was written for, and a script that creates a table of two such names changes what is known
    by the two texts with a dot between them, and nothing else. -/
theorem changedNames_creation (schema name : Text) :
    Token.scan (Text.enclose delimiter name)
        = [Token.placed .delimited (Text.enclose delimiter name) 0] ∧
      Identifier.stored (Text.enclose delimiter name) = name ∧
      (ofText (Text.creation schema name)).changedNames = [schema ++ '.' :: name] := by
  refine ⟨Token.scan_enclose name, Identifier.stored_enclose name, ?_⟩
  have hsentence := Statement.ofTokens_of_isSentence (Statement.isSentence_creation schema name)
    fun _ => Statement.isRead_of_mem_creation
  have hstatements := map_statements_of_tokens (Text.lexemes_creation schema name)
  rw [hsentence] at hstatements
  -- The name that a statement changes does not depend on its place.
  have hnames : (ofText (Text.creation schema name)).statements.map Statement.changedName?
      = [some (schema ++ '.' :: name)] := by
    rw [map_eq_map_of_comp (fun s => s.changedName?_map Token.keepsLexemes_unplaced) hstatements,
      List.map_singleton, Statement.changedName?_creation]
  rw [changedNames_eq Statement.changedName? id fun _ => rfl, hnames]
  simp [Text.listed, Text.insert]

end Script

end SqlScript
