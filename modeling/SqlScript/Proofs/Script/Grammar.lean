import SqlScript.Script.Group
import SqlScript.Script.Split

namespace SqlScript

/-!
# A grammar of scripts

A script is a sequence of simple statements and of constructs, which have scripts as their bodies.

* `Token.IsPart` — the tokens of which the parts of statements are made;
* `IsSentence` — a simple statement, or what comes before the `BEGIN` of a compound one;
* `IsConstruct` — the statements that open the bodies of a construct, and the one that closes the
  last of them;
* `IsScript` — scripts, with the statements of each of their nodes.

None of this refers to how a script is divided into statements, or how deep its bodies are.
-/

/-! ### Parts of statements -/

namespace Token

/-- Whether the tokens close the parentheses and the `CASE` expressions that they open, of which
    `parens` and `cases` are open before the first one. Outside of all parentheses there is no
    semicolon, no `BEGIN` and no other `END`; outside of all `CASE` expressions there is neither any
    of the words `stops`. -/
def isInert (stops : List String) (parens cases : Nat) : List Token → Bool
  | [] => parens == 0 && cases == 0
  | t :: rest =>
    match t.kind with
    | .openParen => isInert stops (parens + 1) cases rest
    | .closeParen => 0 < parens && isInert stops (parens - 1) cases rest
    | kind =>
      if 0 < parens then isInert stops parens cases rest
      else if t.spells "CASE" then isInert stops 0 (cases + 1) rest
      else if t.spells "END" then 0 < cases && isInert stops 0 (cases - 1) rest
      else
        kind != .semicolon && !t.spells "BEGIN" && (0 < cases || !isOneOf stops t.key) &&
          isInert stops 0 cases rest

/-- Whether the tokens can be part of a statement, where they are not ended by one of the words
    `stops`. -/
structure IsPart (stops : List String) (ts : List Token) : Prop where
  noComment : ∀ t ∈ ts, t.isComment = false
  inert : isInert stops 0 0 ts = true
  noConditionEnd : Statement.hasConditionEnd ts = false

/-- Whether the tokens spell the words, one after the other and in whatever case. -/
def Spell (words : List String) (ts : List Token) : Prop := ts.map key = words.map String.toList

instance (words : List String) (ts : List Token) : Decidable (Spell words ts) :=
  inferInstanceAs (Decidable (_ = _))

end Token

/-- The verbs of the statements that open or close a body other than that of a `BEGIN`. -/
def bodyVerbs : List Verb := [.IF, .ELSEIF, .ELSE, .WHILE, .FOR, .LOOP, .REPEAT, .END]

/-- Whether the tokens can be a statement of its own, or stand before a `BEGIN`. -/
structure IsSentence (ts : List Token) : Prop where
  part : Token.IsPart [] ts
  verb : ∀ v ∈ governingVerb? ts, v ∉ bodyVerbs
  notAtomic : ∀ t ∈ ts.head?, t.spells "ATOMIC" = false
  notNotAtomic : ∀ t u rest, ts = t :: u :: rest → t.spells "NOT" = true → u.spells "ATOMIC" = false

/-! ### Constructs -/

/-- Whether the token can be a label. -/
structure IsLabelWord (t : Token) : Prop where
  word : t.kind = .word
  notCase : t.spells "CASE" = false
  notAtomic : t.spells "ATOMIC" = false

/-- Whether the tokens are a label with its colon, or nothing. -/
inductive IsLabel : List Token → Prop where
  | none : IsLabel []
  | some {label colon : Token} (hlabel : IsLabelWord label) (hcolon : colon.kind = .colon) :
      IsLabel [label, colon]

/-- Whether the tokens are a condition between the two words. -/
inductive IsGuarded (first last : String) : List Token → Prop where
  | mk {t u : Token} {condition : List Token} (ht : t.spells first = true)
      (hcondition : Token.IsPart [last] condition) (hu : u.spells last = true) :
      IsGuarded first last (t :: condition ++ [u])

/-- Whether the tokens are the words that open a compound body. -/
def IsBegin (ts : List Token) : Prop :=
  Token.Spell ["BEGIN"] ts ∨ Token.Spell ["BEGIN", "ATOMIC"] ts ∨
    Token.Spell ["BEGIN", "NOT", "ATOMIC"] ts

/-- Whether the tokens close a compound body. -/
def IsEnd (ts : List Token) : Prop :=
  Token.Spell ["END"] ts ∨
    ∃ t label, ts = [t, label] ∧ t.spells "END" = true ∧ IsLabelWord label

/-- Whether the tokens are the condition after which a body is repeated no more. -/
inductive IsUntil : List Token → Prop where
  | mk {t : Token} {condition words : List Token} (ht : t.spells "UNTIL" = true)
      (hcondition : Token.IsPart [] condition)
      (hcolon : ∀ c ∈ condition.head?, c.kind ≠ .colon) (hwords : Token.Spell ["END", "REPEAT"] words) :
      IsUntil (t :: condition ++ words)

/-- The constructs: the tokens that open the first body, those that open each other body, and those
    that close the last one. -/
inductive IsConstruct : List Token → List (List Token) → List Token → Prop where
  | compound {label head words closing : List Token} (hlabel : IsLabel label)
      (hhead : IsSentence head) (hwords : IsBegin words) (hclosing : IsEnd closing) :
      IsConstruct (label ++ (head ++ words)) [] closing
  | conditional {label opening closing : List Token} {elseifs elses : List (List Token)}
      (hlabel : IsLabel label) (hopening : IsGuarded "IF" "THEN" opening)
      (helseifs : ∀ b ∈ elseifs, IsGuarded "ELSEIF" "THEN" b)
      (helses : elses = [] ∨ ∃ b, elses = [b] ∧ Token.Spell ["ELSE"] b)
      (hclosing : Token.Spell ["END", "IF"] closing) :
      IsConstruct (label ++ opening) (elseifs ++ elses) closing
  | whileLoop {label opening closing : List Token} (hlabel : IsLabel label)
      (hopening : IsGuarded "WHILE" "DO" opening)
      (hclosing : Token.Spell ["END", "WHILE"] closing) :
      IsConstruct (label ++ opening) [] closing
  | forLoop {label opening closing : List Token} (hlabel : IsLabel label)
      (hopening : IsGuarded "FOR" "DO" opening) (hclosing : Token.Spell ["END", "FOR"] closing) :
      IsConstruct (label ++ opening) [] closing
  | endless {label opening closing : List Token} (hlabel : IsLabel label)
      (hopening : Token.Spell ["LOOP"] opening) (hclosing : Token.Spell ["END", "LOOP"] closing) :
      IsConstruct (label ++ opening) [] closing
  | repeated {label opening closing : List Token} (hlabel : IsLabel label)
      (hopening : Token.Spell ["REPEAT"] opening) (hclosing : IsUntil closing) :
      IsConstruct (label ++ opening) [] closing

/-! ### Scripts -/

/-- A body with the statement that opens it: the tokens of the body, and the statements of its
    nodes. -/
structure Body where
  opening : Statement
  tokens : List Token
  nodes : List (List Statement)

/-- The tokens of a body, those of the statement that opens it included. -/
def Body.allTokens (b : Body) : List Token := b.opening.tokens ++ b.tokens

/-- The statements of a body, the one that opens it included. -/
def Body.statements (b : Body) : List Statement := b.opening :: b.nodes.flatten

/-- The scripts, as tokens and as the statements of each node. -/
inductive IsScript : List Token → List (List Statement) → Prop where
  | nil : IsScript [] []
  | simple {s : Statement} {semicolon : Token} {rest : List Token} {nodes : List (List Statement)}
      (hs : IsSentence s.tokens) (hsemicolon : semicolon.kind = .semicolon)
      (hrest : IsScript rest nodes) :
      IsScript (s.tokens ++ semicolon :: rest) ([s] :: nodes)
  | construct {first : Body} {others : List Body} {closing : Statement} {semicolon : Token}
      {rest : List Token} {nodes : List (List Statement)}
      (hconstruct : IsConstruct first.opening.tokens (others.map fun b => b.opening.tokens)
        closing.tokens)
      (hfirst : IsScript first.tokens first.nodes)
      (hothers : ∀ b ∈ others, IsScript b.tokens b.nodes)
      (hsemicolon : semicolon.kind = .semicolon) (hrest : IsScript rest nodes) :
      IsScript (first.allTokens ++ (others.flatMap Body.allTokens ++
          (closing.tokens ++ semicolon :: rest)))
        ((first.statements ++ (others.flatMap Body.statements ++ [closing])) :: nodes)

end SqlScript
