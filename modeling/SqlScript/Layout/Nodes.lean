import SqlScript.Layout.Draft
import SqlScript.Statement.Head

namespace SqlScript

/-!
# The layout of nodes

Keywords start a line, unless the statement is of a kind that is written in a single line. Blocks
stay in their line when they are short and simple, and take lines of their own otherwise.

* `Frame` is what the layout of a token depends on apart from the token itself;
* `blockForm` decides how a block is laid out;
* `Draft.addNodes` lays out a sequence of nodes;
* `Node.layOut` gives the lines of a sequence of nodes.
-/

/-! ### What surrounds a token -/

/-- What the nodes of a sequence have in common: the position of the governing one, that of the
    colon of a label, and the verb. -/
structure Frame where
  governing : Option Nat
  labelColon : Option Nat
  verb : Option Verb
deriving DecidableEq

namespace Frame

/-- The frame of a sequence of nodes. -/
def ofNodes (ns : List Node) : Frame :=
  let kinds := ns.map Node.kind?
  let governing := governingPosition? kinds
  ⟨governing, labelColon? kinds,
    (governing.bind fun i => ns[i]?).bind fun n => Verb.ofKey? n.key⟩

/-- The verbs of the statements that are written in a single line. -/
def singleLineVerbs : List Verb := [.CREATE, .DECLARE, .SET, .DELETE, .CALL, .IF, .END]

/-- Whether keywords start no lines. -/
def singleLine (f : Frame) : Bool := f.verb.any fun v => singleLineVerbs.contains v

/-- Whether an object is created. -/
def isCreate (f : Frame) : Bool := f.verb == some .CREATE

/-- Whether the position is after the governing node. -/
def isAfterGoverning (f : Frame) (position : Nat) : Bool := f.governing.any (· < position)

/-- Whether the position is the one of the governing node. -/
def isGoverning (f : Frame) (position : Nat) : Bool := f.governing == some position

/-- Whether the position is the one of the colon behind the label. -/
def isLabelColon (f : Frame) (position : Nat) : Bool := f.labelColon == some position

/-- Whether what follows the node is written right after it: a dot, a comma, or a colon that does
    not belong to the label, as in front of a host variable. -/
def joinsNext (f : Frame) (position : Nat) (n : Node) : Bool :=
  match n.kind? with
  | some .dot | some .comma => true
  | some .colon => !f.isLabelColon position
  | _ => false

end Frame

/-! ### Tokens -/

namespace Draft

/-- The draft with a space in front of the next token, unless it joins the one before it or is
    the colon of the label. -/
def separate (joined isLabelColon : Bool) (d : Draft) : Draft :=
  if joined || isLabelColon then d else d.space

/-- The draft with a word, a literal, an operator or a single colon. A keyword after the governing
    token starts a line; where lists take lines of their own, so does what follows a keyword. -/
def addWord (s : Spacing) (f : Frame) (position : Nat) (joined : Bool) (t : Token) (d : Draft) :
    Draft :=
  let keyword := t.kind.isKeyword && !f.singleLine
  let breaks := keyword && f.isAfterGoverning position
  let opened :=
    if breaks then d.startLine s (if s.newLineLists then -1 else 0)
    else d.separate joined (t.kind == .colon && f.isLabelColon position)
  let written := opened.put (.cased t)
  if s.newLineLists && (breaks || (keyword && f.isGoverning position)) then written.startLine s 1
  else written

/-- The draft with a comment. One that ends with its line is followed by a new line. -/
def addComment (s : Spacing) (joined : Bool) (t : Token) (d : Draft) : Draft :=
  let written := (d.separate joined false).put (.verbatim t)
  if t.isLineComment then { written with afterLineComment := true }.startLine s 0 else written

/-- The draft with a comma, which a new line follows where lists take lines of their own. -/
def addComma (s : Spacing) (t : Token) (d : Draft) : Draft :=
  let written := d.put (.verbatim t)
  if s.newLineLists then written.startLine s 0 else written

/-- The draft with one more token. -/
def addToken (s : Spacing) (f : Frame) (position : Nat) (joined : Bool) (t : Token) (d : Draft) :
    Draft :=
  match t.kind with
  | .comma => d.addComma s t
  | .dot | .openParen | .closeParen => d.put (.verbatim t)
  | .comment => d.addComment s joined t
  | _ => d.addWord s f position joined t

end Draft

/-! ### Blocks -/

/-- How a block is laid out. -/
inductive BlockForm where
  /-- It has nothing to lay out. -/
  | empty
  /-- Its only token is written between the parentheses. -/
  | single (token : Token)
  /-- It takes lines of its own. -/
  | expanded (startsWithKeyword asList : Bool)
  /-- It stays in the line when it fits in one. -/
  | compact
deriving DecidableEq

/-- The number of commas that make a list of a block: two, or one where an object is created. -/
def listCommas (f : Frame) : Nat := if f.isCreate then 1 else 2

/-- The form of a block with several nodes, or with a comment up to the end of its line. A block
    takes lines of its own when it starts with a keyword, has blocks in it or is a list. -/
def blockFormOf (f : Frame) (interior : List Node) : BlockForm :=
  let startsWithKeyword := interior.head?.any Node.isKeyword
  let asList := listCommas f ≤ interior.countP Node.isComma
  if startsWithKeyword || interior.any Node.isBlock || asList then
    .expanded startsWithKeyword asList
  else .compact

/-- The form of a block in a sequence of nodes with the given frame. -/
def blockForm (f : Frame) (interior : List Node) : BlockForm :=
  match interior with
  | [] => .empty
  | [.leaf t] => if t.isLineComment then blockFormOf f interior else .single t
  | _ => blockFormOf f interior

/-- The spacing in a block: a list has its elements on lines of their own, and what has to fit in
    a line has not. -/
def BlockForm.spacing (form : BlockForm) (s : Spacing) : Spacing :=
  match form with
  | expanded _ true => { s with newLineLists := true }
  | compact => { s with newLineLists := false }
  | _ => s

/-- The draft with a block whose interior was laid out as `inner`. -/
def Draft.addBlock (s : Spacing) (f : Frame) (form : BlockForm) (offset : Int) (d inner : Draft) :
    Draft :=
  match form with
  | .empty => d.note (some (.emptyBlock offset))
  | .single t => d.putAll [.openParen, .cased t, .closeParen]
  | .expanded startsWithKeyword _ =>
    let opened := ((if startsWithKeyword then d.space else d).note inner.fault).put .openParen
    (opened.insert s inner.finish).put .closeParen
  | .compact =>
    let opened := (d.note inner.fault).put .openParen
    match inner.finish with
    | [line] => if f.isCreate then (opened.insert s [line]).put .closeParen
                else (opened.putAll line).put .closeParen
    | ls => (opened.insert s ls).put .closeParen

/-! ### Sequences -/

mutual

/-- The draft with a node at the given position of its sequence. `joined` tells that it is written
    right after what comes before it. -/
def Draft.addNode (s : Spacing) (f : Frame) (position : Nat) (joined : Bool) (d : Draft) :
    Node → Draft
  | .leaf t => d.addToken s f position joined t
  | .block interior span =>
    let form := blockForm f interior
    let inner := Draft.start.addNodes (form.spacing s) (Frame.ofNodes interior) 0 false interior
    d.addBlock s f form span.start inner

/-- The draft with the nodes of a sequence from the given position on. -/
def Draft.addNodes (s : Spacing) (f : Frame) (position : Nat) (joined : Bool) (d : Draft) :
    List Node → Draft
  | [] => d
  | n :: rest =>
    (d.addNode s f position joined n).addNodes s f (position + 1) (f.joinsNext position n) rest

end

/-- The draft of a sequence of nodes. -/
def Node.draft (s : Spacing) (ns : List Node) : Draft :=
  Draft.start.addNodes s (Frame.ofNodes ns) 0 false ns

/-- The lines of a sequence of nodes, unless there is an empty block in it. -/
def Node.layOut (s : Spacing) (ns : List Node) : Except StructureError (List Line) :=
  match (Node.draft s ns).fault with
  | some e => .error e
  | none => .ok (Node.draft s ns).finish

end SqlScript
