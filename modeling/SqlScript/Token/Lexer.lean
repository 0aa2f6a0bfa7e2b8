import SqlScript.Token.Extent

namespace SqlScript

/-!
# From text to tokens

At each position of a text the lexical rules are tried in a fixed order, and the first one that
applies decides how many characters the next token takes. The last rule applies to any
character, so that every text can be read, however broken.

* `LexicalRule.reach` is the number of characters that a rule takes at the front of a text, zero
  when it does not apply;
* `LexicalRule.first` is the rule that applies;
* `Token.scan` is the sequence of tokens of a text;
* `LexicalRule.reach_le` and `LexicalRule.reach_first_pos` say that a token takes at least one
  character and no more than there are;
* `Token.scanFrom_zero` says that a text is read token by token.
-/

/-! ### The rules and their order -/

/-- The lexical rules. -/
inductive LexicalRule where
  | blanks
  | comment
  | string
  | delimited
  | prefixedString
  | number
  | word
  | operator
  | punctuation
  | anything
deriving DecidableEq

namespace LexicalRule

/-- The order in which the rules are tried: a dash is a comment with a second one, and an
    operator otherwise. -/
def order : List LexicalRule :=
  [blanks, comment, string, delimited, prefixedString, number, word, operator, punctuation,
   anything]

/-- The number of characters that a rule takes at the front of a text, zero when it does not
    apply. -/
def reach : LexicalRule → Text → Nat
  | blanks, t => runLength Unicode.isBlank t
  | comment, t => commentReach t
  | string, t => quotedReach '\'' t
  | delimited, t => quotedReach '"' t
  | prefixedString, t => prefixedReach t
  | number, t => numberReach t
  | word, t => wordReach t
  | operator, t => operatorReach t
  | punctuation, t => punctuationReach t
  | anything, t => min 1 t.length

/-- The rule that applies at the front of a text. -/
def first (t : Text) : LexicalRule := (order.find? fun r => 0 < r.reach t).getD anything

/-- The kind of a word: whether it is a verb, introduces a clause, or neither. -/
def wordKind (t : Text) : Kind :=
  let key := Unicode.upper t
  if (Verb.ofKey? key).isSome then .verb else if isClauseKey key then .clause else .word

/-- The kind of the token that a rule makes of the text it took. Blanks make no token. -/
def kind? : LexicalRule → Text → Option Kind
  | blanks, _ => none
  | comment, _ => some .comment
  | string, _ => some .string
  | delimited, _ => some .delimited
  | prefixedString, _ => some .string
  | number, _ => some .number
  | word, t => some (wordKind t)
  | operator, _ => some .operator
  | punctuation, t => t.head?.bind punctuationKind?
  | anything, _ => some .unknown

/-- A rule takes no more characters than there are. -/
theorem reach_le (r : LexicalRule) (t : Text) : r.reach t ≤ t.length := by
  cases r with
  | blanks => exact runLength_le _ t
  | comment => exact commentReach_le t
  | string => exact quotedReach_le _ t
  | delimited => exact quotedReach_le _ t
  | prefixedString => exact prefixedReach_le t
  | number => exact numberReach_le t
  | word => exact wordReach_le t
  | operator => exact operatorReach_le t
  | punctuation => exact punctuationReach_le t
  | anything => exact Nat.min_le_right 1 t.length

/-- Where there is a character left, the rule that applies takes at least one. -/
theorem reach_first_pos {t : Text} (h : t ≠ []) : 0 < (first t).reach t := by
  unfold first
  cases hf : order.find? fun r => 0 < r.reach t with
  | none =>
    have := List.length_pos_iff.mpr h
    simp only [Option.getD_none, reach]
    omega
  | some r => simpa using List.find?_some hf

end LexicalRule

/-! ### The tokens of a text -/

namespace Token

/-- The tokens of a text that starts at the given offset, when its first `passed` characters
    belong to a token that was already found. -/
def scanFrom (offset passed : Nat) : Text → List Token
  | [] => []
  | c :: rest =>
    match passed with
    | n + 1 => scanFrom (offset + 1) n rest
    | 0 =>
      let rule := LexicalRule.first (c :: rest)
      let length := rule.reach (c :: rest)
      let lexeme := (c :: rest).take length
      let token? := (rule.kind? lexeme).map fun kind => Token.placed kind lexeme offset
      token?.toList ++ scanFrom (offset + 1) (length - 1) rest

/-- The tokens of a text, comments included. -/
def scan (t : Text) : List Token := scanFrom 0 0 t

/-- Characters that were already found to belong to a token are passed over. -/
theorem scanFrom_passed (offset passed : Nat) (t : Text) :
    scanFrom offset passed t = scanFrom (offset + passed) 0 (t.drop passed) := by
  induction t generalizing offset passed with
  | nil => simp [scanFrom]
  | cons c rest ih =>
    cases passed with
    | zero => simp
    | succ n =>
      rw [scanFrom, ih, List.drop_succ_cons]
      congr 1
      omega

/-- The token that the first rule makes of the front of a text, and the tokens after it. -/
theorem scanFrom_zero {offset : Nat} {t : Text} (h : t ≠ []) :
    scanFrom offset 0 t =
      (((LexicalRule.first t).kind? (t.take ((LexicalRule.first t).reach t))).map fun kind =>
        Token.placed kind (t.take ((LexicalRule.first t).reach t)) offset).toList ++
      scanFrom (offset + (LexicalRule.first t).reach t) 0
        (t.drop ((LexicalRule.first t).reach t)) := by
  cases t with
  | nil => exact absurd rfl h
  | cons c rest =>
    obtain ⟨n, hn⟩ := Nat.exists_eq_add_of_lt (LexicalRule.reach_first_pos h)
    rw [scanFrom, scanFrom_passed]
    simp only [hn, Nat.zero_add, Nat.add_sub_cancel, List.drop_succ_cons]
    congr 2
    omega

end Token

end SqlScript
