import SqlScript.Statement.Basic

namespace SqlScript

/-!
# From tokens to statements

A statement ends at a semicolon, unless the semicolon is between parentheses. A statement that
opens a body ends right after the word that opens it, so that each statement of the body is one of
its own.

* `Splitter` is what was read so far of a statement;
* `Splitter.add` reads one more token;
* `Statement.ofTokens` is the sequence of the statements that a sequence of tokens makes.

Parentheses are counted, and so are `CASE` expressions, as the `THEN`, `ELSE` and `END` in them
belong to no body.
-/

/-- A statement that is being read. -/
structure Splitter where
  /-- The tokens of the statement so far. -/
  current : List Token
  /-- The number of parentheses that are open. -/
  parens : Nat
  /-- The number of `CASE` expressions that are open. -/
  cases : Nat
  /-- The number of tokens that are left of the statement, once it opened a body. -/
  awaited : Option Nat
deriving DecidableEq

/-- The number of tokens, comments included, after a `BEGIN` that is followed by `ATOMIC` or by
    `NOT ATOMIC`. They are looked for in the four tokens that come next. -/
def atomicLength (following : List Token) : Nat :=
  match (following.take 4).zipIdx.filter fun p => !p.1.isComment with
  | [] => 0
  | [(t, n)] => if t.spells "ATOMIC" then n + 1 else 0
  | (t, n) :: (u, m) :: _ =>
    if t.spells "ATOMIC" then n + 1
    else if t.spells "NOT" && u.spells "ATOMIC" then m + 1
    else 0

/-- Whether the word `t`, the last one of the tokens, opens a conditional body. -/
def opensBody (ts : List Token) (t : Token) : Bool :=
  let hasVerb (verbs : List Verb) : Bool := (governingVerb? ts).any fun v => verbs.contains v
  (t.spells "THEN" && hasVerb [.IF, .ELSEIF]) ||
    (t.spells "DO" && hasVerb [.WHILE, .FOR]) ||
    (isOneOf ["ELSE", "LOOP", "REPEAT"] t.key && (governed ts).length == 1)

namespace Splitter

/-- The start of a statement. A semicolon ends a statement outside of all parentheses, and so does
    a body. -/
def start : Splitter := ⟨[], 0, 0, none⟩

/-- What a word outside of all parentheses means for the end of the statement. -/
def readWord (s : Splitter) (t : Token) (following : List Token) : Splitter :=
  if t.spells "CASE" then { s with cases := s.cases + 1 }
  else if t.spells "END" && 0 < s.cases then { s with cases := s.cases - 1 }
  else if 0 < s.cases then s
  else if t.spells "BEGIN" then { s with awaited := some (atomicLength following) }
  else if opensBody s.current t then { s with awaited := some 0 }
  else s

/-- One more token of the statement, with the tokens that follow it. -/
def add (s : Splitter) (t : Token) (following : List Token) : Splitter :=
  let s := { s with current := s.current ++ [t], awaited := s.awaited.map (· - 1) }
  match t.kind with
  | .openParen => { s with parens := s.parens + 1 }
  | .closeParen => { s with parens := s.parens - 1 }
  | kind => if s.parens = 0 ∧ kind.isBareWord then s.readWord t following else s

/-- Whether the token ends the statement without being part of it. -/
def endsAt (s : Splitter) (t : Token) : Bool := t.kind == .semicolon && s.parens == 0

/-- The statement that was read, when it has any token. -/
def finish (s : Splitter) : List Statement :=
  if h : s.current = [] then [] else [⟨s.current, h⟩]

/-- The statement that was read so far, completed from the tokens that are left, and the statements
    after it. -/
def split (s : Splitter) : List Token → List Statement
  | [] => s.finish
  | t :: rest =>
    if s.endsAt t then s.finish ++ start.split rest
    else
      let next := s.add t rest
      if next.awaited = some 0 then next.finish ++ split { start with parens := next.parens } rest
      else next.split rest

end Splitter

/-- The statements that a sequence of tokens makes. -/
def Statement.ofTokens (ts : List Token) : List Statement := Splitter.start.split ts

end SqlScript
