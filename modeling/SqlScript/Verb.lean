import SqlScript.Text.Basic
import SqlScript.Unicode.Uppercase

namespace SqlScript

/-!
# Structural words

The words that decide how a script is read. All of them are compared with the upper case of
a word of the script.

* `Verb` is a word that can govern a statement, and so tells what the statement does;
* `introducesClause` holds of the words that introduce a clause within a statement;
* `isConditionKey` holds of the words that follow `END` at the end of a conditional body.
-/

/-- The words that can govern a statement. -/
inductive Verb where
  | CREATE | INSERT | SELECT | WITH | UPDATE | DELETE | DECLARE | BEGIN | DROP | END | ELSE
  | ELSEIF | CALL | ALTER | FETCH | FOR | GET | GOTO | IF | INCLUDE | ITERATE | LEAVE | LOOP
  | MERGE | OPEN | CLOSE | PIPE | REPEAT | RESIGNAL | RETURN | SIGNAL | SET | WHILE | VALUES
  | GRANT | REVOKE | COMMIT | ROLLBACK | RENAME | TRUNCATE
deriving DecidableEq

namespace Verb

/-- Every verb once. -/
def all : List Verb :=
  [CREATE, INSERT, SELECT, WITH, UPDATE, DELETE, DECLARE, BEGIN, DROP, END, ELSE, ELSEIF, CALL,
   ALTER, FETCH, FOR, GET, GOTO, IF, INCLUDE, ITERATE, LEAVE, LOOP, MERGE, OPEN, CLOSE, PIPE,
   REPEAT, RESIGNAL, RETURN, SIGNAL, SET, WHILE, VALUES, GRANT, REVOKE, COMMIT, ROLLBACK, RENAME,
   TRUNCATE]

/-- The name of a verb in reports, with a capital. -/
def name : Verb → String
  | CREATE => "Create" | INSERT => "Insert" | SELECT => "Select" | WITH => "With"
  | UPDATE => "Update" | DELETE => "Delete" | DECLARE => "Declare" | BEGIN => "Begin"
  | DROP => "Drop" | END => "End" | ELSE => "Else" | ELSEIF => "Elseif" | CALL => "Call"
  | ALTER => "Alter" | FETCH => "Fetch" | FOR => "For" | GET => "Get" | GOTO => "Goto"
  | IF => "If" | INCLUDE => "Include" | ITERATE => "Iterate" | LEAVE => "Leave"
  | LOOP => "Loop" | MERGE => "Merge" | OPEN => "Open" | CLOSE => "Close" | PIPE => "Pipe"
  | REPEAT => "Repeat" | RESIGNAL => "Resignal" | RETURN => "Return" | SIGNAL => "Signal"
  | SET => "Set" | WHILE => "While" | VALUES => "Values" | GRANT => "Grant"
  | REVOKE => "Revoke" | COMMIT => "Commit" | ROLLBACK => "Rollback" | RENAME => "Rename"
  | TRUNCATE => "Truncate"

/-- The spelling of a verb in upper case. -/
def word (v : Verb) : Text := v.name.toList.map Char.toUpper

/-- The verb that is spelled like this in upper case. -/
def ofKey? (key : Text) : Option Verb := all.find? fun v => v.word == key

/-- The verb that a word spells, in whatever case. -/
def ofWord? (t : Text) : Option Verb := ofKey? (Unicode.upper t)

theorem mem_all (v : Verb) : v ∈ all := by cases v <;> decide

/-- The spelling of a verb is read as that verb. -/
theorem ofKey?_word (v : Verb) : ofKey? v.word = some v := by cases v <;> decide

end Verb

/-- Whether the upper case of a word is one of the listed words. -/
def isOneOf (words : List String) (key : Text) : Bool := words.any fun w => w.toList == key

/-- The words that introduce a clause. -/
def clauseWords : List String :=
  ["WHERE", "GROUP", "HAVING", "ORDER", "LIMIT", "OFFSET", "UNION", "INTERSECT", "EXCEPT"]

/-- Whether the upper case of a word introduces a clause. -/
def isClauseKey (key : Text) : Bool := isOneOf clauseWords key

/-- Whether a word, in whatever case, introduces a clause. -/
def introducesClause (t : Text) : Bool := isClauseKey (Unicode.upper t)

/-- The words that follow `END` at the end of a conditional body. -/
def conditionWords : List String := ["IF", "WHILE", "FOR", "LOOP", "REPEAT"]

/-- Whether the upper case of a word follows `END` at the end of a conditional body. -/
def isConditionKey (key : Text) : Bool := isOneOf conditionWords key

end SqlScript
