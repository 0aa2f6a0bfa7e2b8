import SqlScript.Script.Group
import SqlScript.Script.Split
import SqlScript.Token.Lexer

namespace SqlScript

/-!
# Scripts

* `Script.ofText` reads a text: its tokens, statements and groups;
* `Script.notices` tells what was found in it.
-/

/-- A text with what was read in it. -/
structure Script where
  text : Text
  tokens : List Token
  statements : List Statement
  groups : List Group

/-- What there is to tell about a script. -/
inductive Notice where
  /-- A statement closes a body which nothing opened. -/
  | unmatchedEnd (offset : Int)
  /-- A body is opened and never closed. -/
  | unclosedBody (offset : Int)
  /-- A script was read. -/
  | read (characters tokens statements groups : Nat)
  /-- A script was formatted. -/
  | formatted (statements : Nat)
deriving DecidableEq

/-- The notice in words. -/
def Notice.message : Notice → String
  | unmatchedEnd offset => s!"Ignoring unmatched end of body at offset {offset}"
  | unclosedBody offset => s!"Body opened at offset {offset} is never closed"
  | read characters tokens statements groups =>
    s!"Document of {characters} characters: {tokens} tokens, {statements} statements, " ++
      s!"{groups} groups"
  | formatted statements => s!"Formatted {statements} statements"

/-- What there is to tell about the end of a group. -/
def Group.notice? (g : Group) : Option Notice :=
  match g.ending with
  | .closed => none
  | .unmatched => some (.unmatchedEnd g.last.span.start)
  | .unclosed => some (.unclosedBody g.first.span.start)

namespace Script

/-- The script that a text is. -/
def ofText (t : Text) : Script :=
  let tokens := Token.scan t
  let statements := Statement.ofTokens tokens
  ⟨t, tokens, statements, Group.ofStatements statements⟩

/-- What was found in the script, in the order of the text, and at last its size. -/
def notices (s : Script) : List Notice :=
  s.groups.filterMap Group.notice? ++
    [.read s.text.length s.tokens.length s.statements.length s.groups.length]

end Script

end SqlScript
