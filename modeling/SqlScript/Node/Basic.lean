import SqlScript.Token.Basic

namespace SqlScript

/-!
# Nodes

Parentheses make a tree of a sequence of tokens: what stands between a pair of them is a block.
Empty parentheses hold nothing, so they stay a pair of tokens, and the blocks made from a script
are not empty. Trees that come from elsewhere can have empty blocks, which cannot be laid out.

* `Node` is a token or a block;
* `Node.sameAs` compares two nodes whatever their places;
* `StructureError` tells what can be wrong with parentheses and blocks.
-/

/-- A token, or the nodes between a pair of parentheses with the place of the pair. -/
inductive Node where
  | leaf (token : Token)
  | block (interior : List Node) (span : Span)

namespace Node

/-- The kind of a token, none for a block. -/
def kind? : Node → Option Kind
  | leaf t => some t.kind
  | block _ _ => none

/-- The upper case of a token's text, nothing for a block. -/
def key : Node → Text
  | leaf t => t.key
  | block _ _ => []

def isBlock (n : Node) : Bool := n.kind?.isNone

/-- Whether the node is a verb or introduces a clause. -/
def isKeyword (n : Node) : Bool := n.kind?.any Kind.isKeyword

def isComma (n : Node) : Bool := n.kind? == some .comma

/-- Whether the node is a token of the kind and, where a word is given, spells it in any case. -/
def isLike (n : Node) (kind : Kind) (word : Option Text) : Bool :=
  match n with
  | leaf t => t.isLike kind word
  | block _ _ => false

mutual

/-- Whether two nodes are the same, wherever they were found. -/
def sameAs : Node → Node → Bool
  | leaf s, leaf t => s.sameAs t
  | block xs _, block ys _ => sameAll xs ys
  | _, _ => false

/-- Whether two sequences have the same nodes, wherever they were found. -/
def sameAll : List Node → List Node → Bool
  | [], [] => true
  | x :: xs, y :: ys => x.sameAs y && sameAll xs ys
  | _, _ => false

end

end Node

/-- What can be wrong with the parentheses of a script, or with a block. -/
inductive StructureError where
  /-- A closing parenthesis without an opening one, at the offset. -/
  | unexpectedClose (offset : Int)
  /-- An opening parenthesis without a closing one, at the offset. -/
  | unclosedOpen (offset : Int)
  /-- A block with nothing in it, that starts at the offset. -/
  | emptyBlock (offset : Int)
deriving DecidableEq

namespace StructureError

/-- The offset that the error is about. -/
def offset : StructureError → Int
  | unexpectedClose n | unclosedOpen n | emptyBlock n => n

/-- What went wrong, in words. -/
def message : StructureError → String
  | unexpectedClose n => s!"Unexpected ')' at offset {n}"
  | unclosedOpen n => s!"Unclosed '(' at offset {n}"
  | emptyBlock n => s!"Block token at offset {n} has no content"

end StructureError

end SqlScript
