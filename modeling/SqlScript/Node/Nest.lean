import SqlScript.Node.Basic

namespace SqlScript

/-!
# From tokens to nodes

The tokens are read from left to right, with a stack of the parentheses that are open.

* `Nesting` is what was read so far;
* `Node.ofTokens` makes the nodes of a sequence of tokens, or tells the parenthesis that has no
  counterpart: the first closing one that nothing opened, else the last opening one that nothing
  closed.
-/

/-- A parenthesis that is open, with the nodes that stand before it at its level. -/
structure OpenParen where
  opening : Token
  before : List Node

/-- The nodes read so far: the parentheses that are open, the innermost one first, and the nodes
    of the innermost level. -/
structure Nesting where
  pending : List OpenParen
  level : List Node

namespace Nesting

/-- Nothing was read yet. -/
def start : Nesting := ⟨[], []⟩

/-- What a pair of parentheses adds to its level: a block, or the pair itself when there is
    nothing in it. -/
def enclose (opening : Token) (interior : List Node) (closing : Token) : List Node :=
  if interior.isEmpty then [.leaf opening, .leaf closing]
  else [.block interior ⟨opening.span.start, closing.span.stop⟩]

/-- One more token. -/
def add (n : Nesting) (t : Token) : Except StructureError Nesting :=
  match t.kind with
  | .openParen => .ok ⟨⟨t, n.level⟩ :: n.pending, []⟩
  | .closeParen =>
    match n.pending with
    | [] => .error (.unexpectedClose t.span.start)
    | p :: pending => .ok ⟨pending, p.before ++ enclose p.opening n.level t⟩
  | _ => .ok { n with level := n.level ++ [.leaf t] }

/-- The nodes, once all tokens were read. -/
def finish (n : Nesting) : Except StructureError (List Node) :=
  match n.pending with
  | [] => .ok n.level
  | p :: _ => .error (.unclosedOpen p.opening.span.start)

/-- The nodes after the tokens that are still to be read. -/
def addAll (n : Nesting) : List Token → Except StructureError (List Node)
  | [] => n.finish
  | t :: rest =>
    match n.add t with
    | .ok next => next.addAll rest
    | .error e => .error e

end Nesting

/-- The nodes that a sequence of tokens makes. -/
def Node.ofTokens (ts : List Token) : Except StructureError (List Node) := Nesting.start.addAll ts

end SqlScript
