import SqlScript.Statement.Basic

namespace SqlScript

/-!
# From statements to groups

The statements from the one that opens a body to the one that closes it belong together, and are
run together. A statement outside of all bodies is a group of its own.

* `Statement.depthChange` is what a statement adds to the number of open bodies;
* `Group.ofStatements` arranges statements into groups;
* `Group.flatMap_ofStatements` says that the groups hold every statement once, in order.

An end that closes nothing makes a group of its own too, so that every script has groups however
incomplete it is; `Ending` keeps how a group ended.
-/

/-- How a group of statements ends. -/
inductive Ending where
  /-- With all its bodies closed. -/
  | closed
  /-- With a statement that closes a body which nothing opened. -/
  | unmatched
  /-- With the script, while a body is open. -/
  | unclosed
deriving DecidableEq

/-- Statements that belong together, at least one. -/
structure Group where
  statements : List Statement
  nonempty : statements ≠ []
  ending : Ending
deriving DecidableEq

/-- What the statement adds to the number of open bodies. A statement that closes a body and opens
    the next one adds nothing. -/
def Statement.depthChange (s : Statement) : Int :=
  (if s.opens then 1 else 0) - (if s.closes then 1 else 0)

namespace Group

def first (g : Group) : Statement := g.statements.head g.nonempty

def last (g : Group) : Statement := g.statements.getLast g.nonempty

/-- The place of the group, from its first statement to its last one. -/
def span (g : Group) : Span := ⟨g.first.span.start, g.last.span.stop⟩

/-- The group that starts with the statements of `current`, which leave `depth` bodies open, and
    the groups after it. -/
def gather (current : List Statement) (depth : Int) : List Statement → List Group
  | [] => if h : current = [] then [] else [⟨current, h, .unclosed⟩]
  | s :: rest =>
    let depth := depth + s.depthChange
    if 0 < depth then gather (current ++ [s]) depth rest
    else ⟨current ++ [s], by simp, if depth < 0 then .unmatched else .closed⟩ :: gather [] 0 rest

/-- The groups that a sequence of statements makes. -/
def ofStatements (ss : List Statement) : List Group := gather [] 0 ss

/-- The groups hold all the statements, in order. -/
theorem flatMap_gather (current : List Statement) (depth : Int) (ss : List Statement) :
    (gather current depth ss).flatMap (·.statements) = current ++ ss := by
  induction ss generalizing current depth with
  | nil =>
    unfold gather
    split <;> simp_all
  | cons s rest ih =>
    unfold gather
    simp only
    split
    · rw [ih, List.append_assoc, List.singleton_append]
    · simp [ih]

/-- The groups hold every statement once, in order. -/
theorem flatMap_ofStatements (ss : List Statement) :
    (ofStatements ss).flatMap (·.statements) = ss := by
  simp [ofStatements, flatMap_gather]

end Group

end SqlScript
