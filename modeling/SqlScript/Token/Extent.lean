import SqlScript.Token.Basic
import SqlScript.Unicode.DecimalDigit
import SqlScript.Unicode.WordCharacter

namespace SqlScript

/-!
# The extent of tokens

For each form of token, how many characters at the front of a text belong to it. The number is
zero when no such token stands there.

* `commentReach`, `quotedReach`, `prefixedReach`, `numberReach`, `wordReach`, `operatorReach` and
  `punctuationReach` are the forms;
* each of them has a lemma that says that it does not reach beyond the text.

Comments between marks and quoted texts that are not closed reach to the end of the text.
-/

/-! ### Character runs -/

/-- The number of characters at the front of the text that satisfy `p`. -/
def runLength (p : Char → Bool) (t : Text) : Nat := (t.takeWhile p).length

/-- One when the first character of the text satisfies `p`, zero otherwise. -/
def headReach (p : Char → Bool) (t : Text) : Nat := if t.head?.any p then 1 else 0

/-- Whether the character ends a line. -/
def endsLine (c : Char) : Bool := c == '\r' || c == '\n'

/-- The characters that count as letters in names. -/
def isNationalCharacter (c : Char) : Bool := c == '@' || c == '#' || c == '$'

/-- Whether a word can start with the character. -/
def startsWord (c : Char) : Bool :=
  (Unicode.isWordCharacter c && !Unicode.isDecimalDigit c) || isNationalCharacter c

/-- Whether a word can go on with the character. -/
def continuesWord (c : Char) : Bool := Unicode.isWordCharacter c || isNationalCharacter c

/-! ### Forms of tokens -/

/-- The rest of a comment between marks, up to its closing mark or the end of the text. -/
def markedCommentRest : Text → Nat
  | [] => 0
  | '*' :: '/' :: _ => 2
  | _ :: rest => 1 + markedCommentRest rest

/-- A comment of either kind. -/
def commentReach : Text → Nat
  | '-' :: '-' :: rest => 2 + runLength (fun c => !endsLine c) rest
  | '/' :: '*' :: rest => 2 + markedCommentRest rest
  | _ => 0

/-- The rest of a quoted text, up to the closing quote or the end of the text. A doubled quote
    does not close it. -/
def quotedRest (quote : Char) : Text → Nat
  | [] => 0
  | [_] => 1
  | c :: d :: rest =>
    if c ≠ quote then 1 + quotedRest quote (d :: rest)
    else if d = quote then 2 + quotedRest quote rest
    else 1

/-- A quoted text. -/
def quotedReach (quote : Char) : Text → Nat
  | [] => 0
  | c :: rest => if c = quote then 1 + quotedRest quote rest else 0

/-- The letters that tell the type of a string literal on their own. -/
def isTypeLetter (c : Char) : Bool := "xXnNgG".toList.contains c

/-- The letters that tell the type of a string literal, in front of its quote. -/
def literalPrefix : Text → Nat
  | c :: '\'' :: _ => if isTypeLetter c then 1 else 0
  | c :: d :: '\'' :: _ => if (c = 'u' ∨ c = 'U') ∧ (d = 'x' ∨ d = 'X') then 2 else 0
  | _ => 0

/-- A string literal with a prefix. -/
def prefixedReach (t : Text) : Nat :=
  match literalPrefix t with
  | 0 => 0
  | n + 1 => n + 1 + quotedReach '\'' (t.drop (n + 1))

/-- A run of decimal digits. -/
def digitsReach (t : Text) : Nat := runLength Unicode.isDecimalDigit t

/-- The exponent of a number: the letter, an optional sign and digits. -/
def exponentReach : Text → Nat
  | [] => 0
  | e :: rest =>
    let signs := headReach (fun c => c == '+' || c == '-') rest
    let digits := digitsReach (rest.drop signs)
    if (e = 'e' ∨ e = 'E') ∧ digits ≠ 0 then 1 + signs + digits else 0

/-- The fraction of a number: the point and the digits after it, if any. -/
def fractionReach : Text → Nat
  | '.' :: rest => 1 + digitsReach rest
  | _ => 0

/-- A number, which has digits before its point or after it. -/
def numberReach (t : Text) : Nat :=
  let whole := digitsReach t
  let fraction := fractionReach (t.drop whole)
  if whole = 0 ∧ fraction < 2 then 0
  else whole + fraction + exponentReach (t.drop (whole + fraction))

/-- A word. -/
def wordReach : Text → Nat
  | [] => 0
  | c :: rest => if startsWord c then 1 + runLength continuesWord rest else 0

/-- The operators of two characters. -/
def longOperators : List Text :=
  [['<', '>'], ['<', '='], ['>', '='], ['!', '='], ['|', '|'], [':', ':'], ['=', '>']]

/-- The characters that are operators on their own. -/
def isOperatorCharacter (c : Char) : Bool := "-+*/%<>!|&^~?".toList.contains c

/-- An operator. -/
def operatorReach (t : Text) : Nat :=
  if longOperators.any (·.isPrefixOf t) then 2 else headReach isOperatorCharacter t

/-- The kind of the token that is made of the one punctuation character. -/
def punctuationKind? : Char → Option Kind
  | '(' => some .openParen
  | ')' => some .closeParen
  | ',' => some .comma
  | '.' => some .dot
  | ':' => some .colon
  | '=' => some .equals
  | ';' => some .semicolon
  | _ => none

/-- A punctuation character. -/
def punctuationReach (t : Text) : Nat := headReach (fun c => (punctuationKind? c).isSome) t

/-! ### No token reaches beyond the text -/

/-- A run of characters ends within the text. -/
theorem runLength_le (p : Char → Bool) (t : Text) : runLength p t ≤ t.length :=
  (List.takeWhile_sublist p).length_le

/-- One character in front is at most the text. -/
theorem headReach_le (p : Char → Bool) (t : Text) : headReach p t ≤ t.length := by
  cases t with
  | nil => simp [headReach]
  | cons c rest => unfold headReach; split <;> simp

/-- The rest of a `/*` comment ends with its `*/` or with the text. -/
theorem markedCommentRest_le (t : Text) : markedCommentRest t ≤ t.length := by
  fun_induction markedCommentRest t <;> grind

/-- A comment of either form ends within the text. -/
theorem commentReach_le (t : Text) : commentReach t ≤ t.length := by
  unfold commentReach
  split
  · have := runLength_le (fun c => !endsLine c) ‹_›
    simp only [List.length_cons]; omega
  · have := markedCommentRest_le ‹_›
    simp only [List.length_cons]; omega
  · omega

/-- The rest of a quoted text ends with its quote or with the text. -/
theorem quotedRest_le (quote : Char) (t : Text) : quotedRest quote t ≤ t.length := by
  fun_induction quotedRest quote t <;> grind

/-- A quoted text ends within the text. -/
theorem quotedReach_le (quote : Char) (t : Text) : quotedReach quote t ≤ t.length := by
  unfold quotedReach
  have := quotedRest_le quote t.tail
  grind

/-- A literal prefix is followed by the quote, so the text is longer than it is. -/
theorem literalPrefix_lt {t : Text} (h : literalPrefix t ≠ 0) : literalPrefix t < t.length := by
  revert h
  unfold literalPrefix
  split
  · split <;> simp
  · split <;> simp
  · simp

/-- A prefixed literal ends within the text. -/
theorem prefixedReach_le (t : Text) : prefixedReach t ≤ t.length := by
  have h := @literalPrefix_lt t
  unfold prefixedReach
  split
  · omega
  · rename_i n hn
    have := quotedReach_le '\'' (t.drop (n + 1))
    rw [List.length_drop] at this
    omega

/-- Digits end within the text. -/
theorem digitsReach_le (t : Text) : digitsReach t ≤ t.length := runLength_le _ t

/-- An exponent, with its sign and its digits, ends within the text. -/
theorem exponentReach_le (t : Text) : exponentReach t ≤ t.length := by
  unfold exponentReach
  split
  · omega
  · rename_i e rest
    have h := headReach_le (fun c => c == '+' || c == '-') rest
    have h' := digitsReach_le (rest.drop (headReach (fun c => c == '+' || c == '-') rest))
    rw [List.length_drop] at h'
    grind

/-- A fraction ends within the text. -/
theorem fractionReach_le (t : Text) : fractionReach t ≤ t.length := by
  unfold fractionReach
  split
  · have := digitsReach_le ‹_›
    simp only [List.length_cons]; omega
  · omega

/-- A number ends within the text, as each of its parts ends within what is left for it. -/
theorem numberReach_le (t : Text) : numberReach t ≤ t.length := by
  have h := digitsReach_le t
  have h' := fractionReach_le (t.drop (digitsReach t))
  have h'' := exponentReach_le (t.drop (digitsReach t + fractionReach (t.drop (digitsReach t))))
  rw [List.length_drop] at h' h''
  unfold numberReach
  grind

/-- A word ends within the text. -/
theorem wordReach_le (t : Text) : wordReach t ≤ t.length := by
  unfold wordReach
  split
  · omega
  · have := runLength_le continuesWord ‹_›
    grind

/-- An operator of one or two characters ends within the text. -/
theorem operatorReach_le (t : Text) : operatorReach t ≤ t.length := by
  unfold operatorReach
  split
  · rename_i h
    obtain ⟨o, ho, hp⟩ := List.any_eq_true.mp h
    have hl : o.length = 2 := by
      simp only [longOperators, List.mem_cons, List.not_mem_nil, or_false] at ho
      rcases ho with rfl | rfl | rfl | rfl | rfl | rfl | rfl <;> rfl
    have := (List.isPrefixOf_iff_prefix.mp hp).length_le
    omega
  · exact headReach_le _ t

/-- A punctuation character is at most the text. -/
theorem punctuationReach_le (t : Text) : punctuationReach t ≤ t.length := headReach_le _ t

end SqlScript
