import SqlScript.Proofs.Script.Reading
import SqlScript.Proofs.Script.Uncommented
import SqlScript.Proofs.Token.Enclosed
import SqlScript.Script.Basic
import SqlScript.Statement.Schema

namespace SqlScript

/-!
# Schemas as string literals

The schema that a statement switches to can be written as a string literal. What is taken of the
literal is what stands between its first and its last character, with the doubled quotes in it read
as one. So the schema is the text that the literal is written for, when the literal has no prefix.
Of a prefix the first letter is left out instead of the quote, and the rest of it and the quote come
in front of the text.

* `Text.literal` — a text as a string literal, with the prefix in front of it;
* `Token.scan_literal` — a literal is read as one token;
* `Token.schemaName_literal` — the schema that a literal stands for;
* `IsSchemaSwitch` — the tokens of a statement that switches to a schema written as a literal;
* `Statement.newSchema?_of_isSchemaSwitch` — the schema that it switches to;
* `Statement.ofTokens_of_isPlain` — tokens that mean nothing for the end of a statement are one;
* `Script.newSchema?_literal` — the schema that a literal stands for in a script, in whatever case
  and with whatever comments.
-/

/-! ### Literals -/

namespace Text

/-- The text as a string literal, with the prefix in front of it. -/
def literal (p v : Text) : Text := p ++ enclose '\'' v

/-- A quote in front of doubled quotes stands for itself. -/
theorem undouble_cons_double (quote : Char) (t : Text) :
    undouble quote (quote :: double quote t) = quote :: t := by
  induction t with
  | nil => rfl
  | cons c t ih =>
    by_cases hc : c = quote
    · -- The quote in front pairs up with the first one of the two, and the second one is in front
      -- of what is left.
      rw [double, if_pos hc, hc, undouble, if_pos ⟨rfl, rfl⟩, ih]
    · rw [double, if_neg hc, undouble, if_neg fun h => hc h.2, undouble_cons_of_ne hc,
        undouble_double]

/-- Without its first and its last character, a literal is what is left of its prefix and its first
    quote, and then the text with its quotes doubled. -/
theorem inner_literal (p v : Text) :
    Identifier.inner (literal p v) = (p ++ ['\'']).tail ++ double '\'' v := by
  have hliteral : literal p v = (p ++ ['\'']) ++ double '\'' v ++ ['\''] := by
    simp [literal, enclose]
  rw [Identifier.inner, hliteral, List.drop_one, List.append_assoc,
    List.tail_append_of_ne_nil (by simp), ← List.append_assoc, List.dropLast_concat]

/-- The quotes in a literal are read as they were written, behind what is left of its prefix. -/
theorem undouble_inner_literal {p : Text} (hp : p = [] ∨ IsLiteralPrefix p) (v : Text) :
    undouble '\'' (Identifier.inner (literal p v)) = (p ++ ['\'']).tail ++ v := by
  rw [inner_literal]
  -- Of a prefix of one letter the quote is left, and of one of two letters the second one too.
  rcases hp with rfl | ⟨c, rfl, -⟩ | ⟨c, d, rfl, -, hd⟩
  · exact undouble_double '\'' v
  · exact undouble_cons_double '\'' v
  · have hquote : d ≠ '\'' := by rcases hd with rfl | rfl <;> decide
    show undouble '\'' (d :: '\'' :: double '\'' v) = d :: '\'' :: v
    rw [undouble_cons_of_ne hquote, undouble_cons_double]

end Text

/-- A literal is read as one lexeme where it stands alone. -/
theorem Lexeme.readBefore_literal {p : Text} (hp : p = [] ∨ IsLiteralPrefix p) (v : Text) :
    ReadBefore ⟨.string, Text.literal p v⟩ [] := by
  have hquoted : Text.Quoted '\'' (Text.enclose '\'' v) [] := .closed (by simp)
  have hlength := quotedRest_eq_length_iff.mpr hquoted
  rcases hp with rfl | hp
  · exact (Form.string hlength).readBefore
  · exact (Form.prefixedString hp hlength).readBefore

namespace Token

variable {p : Text} {t : Token}

/-- A literal is read as one token where it stands alone. -/
theorem scan_literal (hp : p = [] ∨ IsLiteralPrefix p) (v : Text) :
    scan (Text.literal p v) = [placed .string (Text.literal p v) 0] :=
  scan_of_readBefore_nil (Lexeme.readBefore_literal hp v)

/-- What is written as a literal is one. -/
theorem IsRead.kind_eq_string (h : t.IsRead) (hp : p = [] ∨ IsLiteralPrefix p) {v : Text}
    (ht : t.text = Text.literal p v) : t.kind = .string := by
  obtain ⟨rest, hread⟩ := h
  refine hread.kind_eq_of_opens ?_
  change Text.Opens .string (t.text ++ rest)
  rw [ht, Text.literal, List.append_assoc]
  exact .literal hp

/-- The schema that a literal stands for has what is left of the prefix and the quote in front of
    the text that the literal is written for. -/
theorem schemaName_literal (hp : p = [] ∨ IsLiteralPrefix p) {v : Text} (hk : t.kind = .string)
    (ht : t.text = Text.literal p v) : t.schemaName = (p ++ ['\'']).tail ++ v := by
  rw [schemaName, if_pos hk, ht, Text.undouble_inner_literal hp]

end Token

/-! ### Statements -/

/-- The words between `SET` and the schema. -/
def schemaWords : List (List String) := [["SCHEMA"], ["CURRENT", "SCHEMA"], ["CURRENT_SCHEMA"]]

/-- Whether the tokens are an equals sign, or nothing. -/
inductive IsOptionalEquals : List Token → Prop where
  | none : IsOptionalEquals []
  | some {t : Token} (ht : t.kind = .equals) : IsOptionalEquals [t]

/-- Whether the tokens, of which none is a comment, are those of a statement that switches to a
    schema which is written as a literal, for the text `v` and with the prefix `p`. -/
inductive IsSchemaSwitch (p v : Text) : List Token → Prop where
  | mk {set literal : Token} {words : List String} {header equals : List Token}
      (hset : set.spells "SET" = true) (hwords : words ∈ schemaWords)
      (hheader : Token.Spell words header) (hequals : IsOptionalEquals equals)
      (hliteral : literal.text = Text.literal p v) :
      IsSchemaSwitch p v (set :: (header ++ (equals ++ [literal])))

/-- Behind `SET` and `CURRENT` there is one of two words. -/
theorem exists_dropOptional_current {words : List String} (hwords : words ∈ schemaWords)
    {header : List Token} (h : Token.Spell words header) (rest : List Token) :
    ∃ t, dropOptional (·.spells "CURRENT") (header ++ rest) = t :: rest ∧
      (t.spells "SCHEMA" || t.spells "CURRENT_SCHEMA") = true := by
  simp only [schemaWords, List.mem_cons, List.not_mem_nil, or_false] at hwords
  rcases hwords with rfl | rfl | rfl
  · obtain ⟨t, rfl, ht⟩ := Token.spell_singleton.mp h
    have hcurrent := Token.spells_eq_false ht "CURRENT" (by decide)
    exact ⟨t, by simp [dropOptional, hcurrent], by rw [ht, Bool.true_or]⟩
  · obtain ⟨current, t, rfl, hcurrent, ht⟩ := Token.spell_pair.mp h
    exact ⟨t, by simp [dropOptional, hcurrent], by rw [ht, Bool.true_or]⟩
  · obtain ⟨t, rfl, ht⟩ := Token.spell_singleton.mp h
    have hcurrent := Token.spells_eq_false ht "CURRENT" (by decide)
    exact ⟨t, by simp [dropOptional, hcurrent], by rw [ht, Bool.or_true]⟩

/-- The equals sign in front of a string can be left out. -/
theorem dropOptional_equals {equals : List Token} (h : IsOptionalEquals equals) {t : Token}
    (ht : t.kind = .string) : dropOptional (·.kind == .equals) (equals ++ [t]) = [t] := by
  cases h with
  | none => simp [dropOptional, ht]
  | some he => simp [dropOptional, he]

namespace Statement

variable {p v : Text} {s : Statement}

/-- A statement that starts with a verb has this verb. -/
theorem verb?_of_significant {t : Token} {rest : List Token} (h : s.significant = t :: rest)
    (hread : t.IsRead) {w : String} {verb : Verb} (ht : t.spells w = true)
    (hw : Verb.ofKey? w.toList = some verb) : s.verb? = some verb := by
  have hcomment : ∀ u ∈ t :: rest, u.isComment = false := by
    intro u hu
    rw [← h] at hu
    simpa using (List.mem_filter.mp hu).2
  have hgoverned : governed s.tokens = t :: rest := by
    -- A verb is no label, so that it governs the statement itself.
    have hsame : governed (Token.significant s.tokens) = governed s.tokens :=
      congrArg (fun us => (splitLabel us).2) (Token.significant_significant s.tokens)
    rw [← hsame, ← governed_of_not_word (hread.kind_ne_word ht hw) hcomment, ← h]
    rfl
  rw [verb?, governingVerb?, governing?, hgoverned, List.head?_cons, Option.bind_some,
    Token.key_of_spells ht, hw]

/-- The schema that a statement switches to, when it is written as a literal. -/
theorem newSchema?_of_isSchemaSwitch (hp : p = [] ∨ IsLiteralPrefix p)
    (h : IsSchemaSwitch p v s.significant) (hread : ∀ t ∈ s.significant, t.IsRead) :
    s.newSchema? = some ((p ++ ['\'']).tail ++ v) := by
  generalize hs : s.significant = ts at h hread
  obtain ⟨hset, hwords, hheader, hequals, hliteral⟩ := h
  rename_i set literal words header equals
  have hverb : s.verb? = some .SET :=
    verb?_of_significant hs (hread set (by simp)) hset (by decide)
  have hkind := (hread literal (by simp)).kind_eq_string hp hliteral
  obtain ⟨t, hdrop, ht⟩ := exists_dropOptional_current hwords hheader (equals ++ [literal])
  rw [newSchema?, if_pos hverb, hs, List.tail_cons, hdrop]
  simp only [ht, if_true, dropOptional_equals hequals hkind, List.head?_cons, Option.map_some,
    Token.schemaName_literal hp hkind hliteral]

end Statement

/-! ### Tokens of one statement -/

/-- The words that mean something for the end of a statement. -/
def endingWords : List String :=
  ["CASE", "END", "BEGIN", "THEN", "DO", "ELSE", "LOOP", "REPEAT"]

/-- Whether the token means nothing for the end of a statement. -/
structure Token.IsPlain (t : Token) : Prop where
  level : t.IsLevel
  notSemicolon : t.kind ≠ .semicolon
  notSpelled : ∀ w ∈ endingWords, t.spells w = false

namespace Token

variable {t : Token}

/-- A mark spells nothing but itself. -/
theorem IsRead.key_of_mark? (h : t.IsRead) {c : Char} (hc : t.kind.mark? = some c) :
    t.key = [c] := by
  obtain ⟨rest, hread⟩ := h
  have htext : t.text = [c] := hread.form.text_of_mark? hc
  rw [key, htext]
  cases hk : t.kind <;> rw [hk] at hc <;>
    simp only [Kind.mark?, Option.some.injEq, reduceCtorEq] at hc <;> subst hc <;> decide +kernel

/-- A word that belongs to no body is plain. -/
theorem IsRead.isPlain_of_spells (h : t.IsRead) {w : String} (ht : t.spells w = true)
    (hlength : w.toList.length ≠ 1) (hw : w ∉ endingWords) : t.IsPlain := by
  -- The kinds that are asked about have one character as their text.
  have hmark : ∀ k : Kind, k.mark?.isSome = true → t.kind ≠ k := by
    rintro _ hsome rfl
    obtain ⟨c, hc⟩ := Option.isSome_iff_exists.mp hsome
    refine hlength ?_
    rw [← key_of_spells ht, h.key_of_mark? hc, List.length_singleton]
  exact ⟨⟨hmark _ rfl, hmark _ rfl⟩, hmark _ rfl,
    fun w' hw' => spells_eq_false ht w' fun heq => hw (heq ▸ hw')⟩

/-- What is no word, no parenthesis and no semicolon is plain. -/
theorem IsRead.isPlain_of_kind (h : t.IsRead)
    (hk : t.kind = .comment ∨ t.kind = .equals ∨ t.kind = .string) : t.IsPlain := by
  have hreserved : ∀ w ∈ endingWords, isReserved w = true := by decide
  have hword : t.kind.isBareWord = false := by rcases hk with hk | hk | hk <;> rw [hk] <;> rfl
  have hne : t.kind ≠ .openParen ∧ t.kind ≠ .closeParen ∧ t.kind ≠ .semicolon := by
    rcases hk with hk | hk | hk <;> rw [hk] <;> decide
  exact ⟨⟨hne.1, hne.2.1⟩, hne.2.2, fun w hw => h.spells_eq_false_of_kind hword (hreserved w hw)⟩

/-- Plain tokens can be part of a statement. -/
theorem isInert_of_isPlain {ts : List Token} (h : ∀ t ∈ ts, t.IsPlain) :
    isInert [] 0 0 ts = true := by
  induction ts with
  | nil => rfl
  | cons t ts ih =>
    obtain ⟨ht, hts⟩ := List.forall_mem_cons.mp h
    have hnone : isOneOf [] t.key = false := rfl
    simp [isInert_cons ht.level, ht.notSpelled "CASE" (by decide), ht.notSpelled "END" (by decide),
      ht.notSpelled "BEGIN" (by decide), ht.notSemicolon, hnone, ih hts]

end Token

/-- Plain tokens make one statement. -/
theorem Statement.ofTokens_of_isPlain {s : Statement} (h : ∀ t ∈ s.tokens, t.IsPlain)
    (hread : ∀ t ∈ s.tokens, t.IsRead) : ofTokens s.tokens = [s] := by
  have hopens : ∀ before t after, s.tokens = before ++ t :: after → isOneOf [] t.key = false →
      opensBody ([] ++ (before ++ [t])) t = false := fun before t after hsplit _ =>
    opensBody_eq_false_of_forall (fun w hw => (h t (by rw [hsplit]; simp)).notSpelled w
      (List.mem_append_right ["CASE", "END", "BEGIN"] hw)) _
  have hsplit := Splitter.split_inert [] hread (Token.isInert_of_isPlain h) hopens []
  rw [List.append_nil, List.nil_append] at hsplit
  exact hsplit.trans (Splitter.finish_reading s)

/-- The tokens that switch to a schema are plain. -/
theorem IsSchemaSwitch.isPlain {p v : Text} (hp : p = [] ∨ IsLiteralPrefix p) {ts : List Token}
    (h : IsSchemaSwitch p v ts) (hread : ∀ t ∈ ts, t.IsRead) : ∀ t ∈ ts, t.IsPlain := by
  obtain ⟨hset, hwords, hheader, hequals, hliteral⟩ := h
  rename_i set literal words header equals
  have hall : ∀ words ∈ schemaWords, ∀ w ∈ words, w.toList.length ≠ 1 ∧ w ∉ endingWords := by
    decide
  intro t ht
  have htread := hread t ht
  rw [List.mem_cons, List.mem_append, List.mem_append, List.mem_singleton] at ht
  rcases ht with rfl | ht | ht | rfl
  · exact htread.isPlain_of_spells hset (by decide) (by decide)
  · -- A token of the header spells one of its words.
    have hkey : t.key ∈ words.map String.toList := by
      rw [← (show header.map Token.key = words.map String.toList from hheader)]
      exact List.mem_map_of_mem ht
    obtain ⟨w, hw, hkey⟩ := List.mem_map.mp hkey
    have hspells : t.spells w = true := by rw [Token.spells, ← hkey, beq_self_eq_true]
    exact htread.isPlain_of_spells hspells (hall words hwords w hw).1 (hall words hwords w hw).2
  · cases hequals with
    | none => exact absurd ht (by simp)
    | some he =>
      rw [List.mem_singleton] at ht
      exact htread.isPlain_of_kind (.inr (.inl (ht ▸ he)))
  · exact htread.isPlain_of_kind (.inr (.inr (htread.kind_eq_string hp hliteral)))

/-! ### Scripts -/

namespace Script

open Token (significant)

/-- What is left of a prefix and the quote behind it is nothing only where there is no prefix. -/
theorem tail_append_quote_append_eq_iff {p v : Text} : (p ++ ['\'']).tail ++ v = v ↔ p = [] := by
  rw [List.append_left_eq_self]
  cases p <;> simp

/-- A text whose tokens, comments left out, switch to a schema written as a literal is one
    statement. -/
theorem exists_statements_eq {p v : Text} (hp : p = [] ∨ IsLiteralPrefix p) {t : Text}
    (h : IsSchemaSwitch p v (significant (Token.scan t))) :
    ∃ s, (ofText t).statements = [s] ∧ s.tokens = Token.scan t := by
  have hread : ∀ u ∈ Token.scan t, u.IsRead := fun _ => Token.isRead_of_mem_scan
  have hne : Token.scan t ≠ [] := by
    intro hnil
    rw [hnil] at h
    cases h
  let s : Statement := ⟨Token.scan t, hne⟩
  have hplain : ∀ u ∈ s.tokens, u.IsPlain := by
    intro u hu
    cases hc : u.isComment with
    | true => exact (hread u hu).isPlain_of_kind (.inl (by simpa [Token.isComment] using hc))
    | false =>
      exact h.isPlain hp (fun u hu => hread u (List.mem_filter.mp hu).1) u
        (List.mem_filter.mpr ⟨hu, by simp [hc]⟩)
  exact ⟨s, Statement.ofTokens_of_isPlain hplain hread, rfl⟩

/-- A literal is read as one token. A text whose tokens, in whatever case and with comments left
    out, switch to a schema written as a literal is one statement. And wherever such a statement
    stands in a script, its schema is the text that the literal is written for exactly when the
    literal has no prefix: otherwise the rest of the prefix and the quote are in front of the
    text. -/
theorem newSchema?_literal {p : Text} (hp : p = [] ∨ IsLiteralPrefix p) (v : Text) :
    Token.scan (Text.literal p v) = [Token.placed .string (Text.literal p v) 0] ∧
      ∀ t : Text,
        (IsSchemaSwitch p v (significant (Token.scan t)) →
          ∃ s, (ofText t).statements = [s] ∧ s.tokens = Token.scan t) ∧
        ∀ s ∈ (ofText t).statements, IsSchemaSwitch p v s.significant →
          s.newSchema? = some ((p ++ ['\'']).tail ++ v) ∧ (s.newSchema? = some v ↔ p = []) := by
  refine ⟨Token.scan_literal hp v, fun t => ⟨exists_statements_eq hp, fun s hs h => ?_⟩⟩
  have hread : ∀ u ∈ s.significant, u.IsRead := fun u hu =>
    Token.isRead_of_mem_scan (Statement.mem_of_mem_tokens hs (List.mem_filter.mp hu).1)
  have hschema := Statement.newSchema?_of_isSchemaSwitch hp h hread
  refine ⟨hschema, ?_⟩
  rw [hschema, Option.some.injEq, tail_append_quote_append_eq_iff]

/-- A literal with a prefix of two letters, with comments and in mixed case. -/
theorem newSchema?_literal_mixed :
    let p := "uX".toList
    let v := "a'b".toList
    let t := "set /* c */ Current schema = -- c\nuX'a''b'".toList
    (p = [] ∨ IsLiteralPrefix p) ∧ IsSchemaSwitch p v (significant (Token.scan t)) ∧
      ∃ s, (ofText t).statements = [s] ∧ s.newSchema? = some "X'a'b".toList := by
  intro p v t
  have hp : p = [] ∨ IsLiteralPrefix p := .inr (.inr ⟨'u', 'X', rfl, .inl rfl, .inr rfl⟩)
  have htokens : significant (Token.scan t) = [.placed .verb "set".toList 0,
      .placed .word "Current".toList 12, .placed .word "schema".toList 20, .placed .equals ['='] 27,
      .placed .string (Text.literal p v) 34] := by
    decide +kernel
  have h : IsSchemaSwitch p v (significant (Token.scan t)) := by
    rw [htokens]
    exact @IsSchemaSwitch.mk p v _ _ ["CURRENT", "SCHEMA"]
      [.placed .word "Current".toList 12, .placed .word "schema".toList 20]
      [.placed .equals ['='] 27] (by decide +kernel) (by decide) (by decide +kernel) (.some rfl) rfl
  obtain ⟨-, hall⟩ := newSchema?_literal hp v
  obtain ⟨s, hs, htokens'⟩ := (hall t).1 h
  have hsignificant : s.significant = significant (Token.scan t) := by
    rw [Statement.significant, htokens']
  exact ⟨hp, h, s, hs, ((hall t).2 s (by rw [hs]; exact List.mem_singleton_self s)
    (hsignificant ▸ h)).1⟩

/-- A literal of the national character set stands for a text with a quote in front of it. -/
theorem not_newSchema?_national :
    ¬∀ (p v t : Text), (p = [] ∨ IsLiteralPrefix p) → ∀ s ∈ (ofText t).statements,
      IsSchemaSwitch p v s.significant → s.newSchema? = some v := by
  intro h
  let t := "SET SCHEMA N'ABC'".toList
  let s : Statement := ⟨Token.scan t, by decide +kernel⟩
  have hs : s ∈ (ofText t).statements := by
    have hstatements : (ofText t).statements = [s] := by decide +kernel
    rw [hstatements]
    exact List.mem_singleton_self s
  have hswitch : IsSchemaSwitch ['N'] "ABC".toList s.significant := by
    have hsignificant : s.significant = [.placed .verb "SET".toList 0,
        .placed .word "SCHEMA".toList 4, .placed .string "N'ABC'".toList 11] := by decide +kernel
    rw [hsignificant]
    exact @IsSchemaSwitch.mk _ _ _ _ ["SCHEMA"] [.placed .word "SCHEMA".toList 4] []
      (by decide +kernel) (by decide) (by decide +kernel) .none rfl
  have hschema := h ['N'] "ABC".toList t (.inr (.inl ⟨'N', rfl, by decide⟩)) s hs hswitch
  have hcode : s.newSchema? = some "'ABC".toList := by decide +kernel
  rw [hcode] at hschema
  exact absurd hschema (by decide)

end Script

end SqlScript
