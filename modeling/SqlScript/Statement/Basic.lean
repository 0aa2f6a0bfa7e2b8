import SqlScript.Statement.Head

namespace SqlScript

/-!
# Statements

A statement is a sequence of tokens, the semicolon that ends it not included.

* `Statement.label?`, `Statement.verb?` and `Statement.operands` are its parts;
* `Statement.opener?` is the word with which it opens a body, which is its last word;
* `Statement.opens` and `Statement.closes` tell how it changes the depth of bodies. There are
  compound bodies, from `BEGIN` to `END`, and conditional ones, as from `THEN` to `END IF`.
-/

/-- A statement, which has at least one token. -/
structure Statement where
  tokens : List Token
  nonempty : tokens ≠ []
deriving DecidableEq

/-- The words that open a body. -/
inductive Opener where
  | BEGIN | THEN | ELSE | DO | LOOP | REPEAT
deriving DecidableEq

/-- The spelling of an opening word in upper case. -/
def Opener.word : Opener → String
  | BEGIN => "BEGIN"
  | THEN => "THEN"
  | ELSE => "ELSE"
  | DO => "DO"
  | LOOP => "LOOP"
  | REPEAT => "REPEAT"

namespace Statement

/-! ### Parts -/

/-- The place of the statement, from its first token to its last one. -/
def span (s : Statement) : Span :=
  ⟨(s.tokens.head s.nonempty).span.start, (s.tokens.getLast s.nonempty).span.stop⟩

/-- The tokens that are not comments. -/
def significant (s : Statement) : List Token := Token.significant s.tokens

/-- The label in front of the statement. -/
def label? (s : Statement) : Option Text := (splitLabel s.significant).1.map (·.text)

/-- The verb that governs the statement, when its governing token is one. -/
def verb? (s : Statement) : Option Verb := governingVerb? s.tokens

/-- The tokens after the governing one, comments left out. -/
def operands (s : Statement) : List Token := (governed s.tokens).tail

/-- Whether one of the verbs governs the statement. -/
def hasVerb (s : Statement) (verbs : List Verb) : Bool := s.verb?.any fun v => verbs.contains v

/-- The name of a statement's verb in reports. -/
def verbName (v : Option Verb) : String := (v.map Verb.name).getD "Unknown"

/-! ### Bodies -/

/-- Whether the words, the last one first, end in `BEGIN`, with `NOT` behind it or not. -/
def endsInBegin : List Text → Bool
  | [] => false
  | w :: before =>
    if w = "NOT".toList then before.head? == some "BEGIN".toList else w == "BEGIN".toList

/-- The word with which the statement opens a body. `THEN` and `DO` open one in the statements
    that have a condition, and `ELSE`, `LOOP` and `REPEAT` when nothing follows them. -/
def opener? (s : Statement) : Option Opener :=
  match (s.significant.map Token.key).reverse with
  | [] => none
  | last :: before =>
    if last = "ATOMIC".toList then if endsInBegin before then some .BEGIN else none
    else if last = "BEGIN".toList then some .BEGIN
    else if last = "THEN".toList ∧ s.hasVerb [.IF, .ELSEIF] then some .THEN
    else if last = "DO".toList ∧ s.hasVerb [.WHILE, .FOR] then some .DO
    else if s.operands.isEmpty then
      match s.verb? with
      | some .ELSE => some .ELSE
      | some .LOOP => some .LOOP
      | some .REPEAT => some .REPEAT
      | _ => none
    else none

/-- Whether the statement opens a compound body. -/
def opensCompound (s : Statement) : Bool := s.opener? == some .BEGIN

/-- Whether the statement opens a conditional body. -/
def opensConditional (s : Statement) : Bool := s.opener?.any (· != .BEGIN)

/-- Whether the statement closes a compound body: `END` on its own or with a label, but not with
    the word of a condition or with `CASE`. -/
def closesCompound (s : Statement) : Bool :=
  s.hasVerb [.END] &&
    s.operands.head?.all fun t => !isConditionKey t.key && t.key != "CASE".toList

/-- Whether `END` and the word of a condition stand side by side. -/
def hasConditionEnd (ts : List Token) : Bool :=
  (ts.zip ts.tail).any fun p => p.1.spells "END" && isConditionKey p.2.key

/-- Whether the statement closes a conditional body. `ELSE` and `ELSEIF` do, and they open the
    next one. -/
def closesConditional (s : Statement) : Bool :=
  s.hasVerb [.ELSE, .ELSEIF] || hasConditionEnd s.significant

/-- Whether the statement opens a body. -/
def opens (s : Statement) : Bool := s.opensCompound || s.opensConditional

/-- Whether the statement closes a body. -/
def closes (s : Statement) : Bool := s.closesCompound || s.closesConditional

end Statement

end SqlScript
