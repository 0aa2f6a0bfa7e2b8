import SqlScript.Verb

namespace SqlScript

/-!
# Tokens

A script is a sequence of tokens. Each one has a kind, the exact text it was written with, and
the place where it was found.

* `Token.key` is the upper case of the text, in which tokens are compared with the words of the
  language;
* `Token.sameAs` compares two tokens whatever their places.
-/

/-- A place in a text: the offset of its first character and the offset after its last one. -/
structure Span where
  start : Int
  stop : Int
deriving DecidableEq

/-- The kinds of tokens. -/
inductive Kind where
  /-- A word that can govern a statement. -/
  | verb
  /-- A word that introduces a clause. -/
  | clause
  /-- Any other word that is not delimited. -/
  | word
  /-- A name between double quotes. -/
  | delimited
  | comma
  | dot
  | equals
  | colon
  | semicolon
  | openParen
  | closeParen
  /-- A string literal, with its prefix when it has one. -/
  | string
  | number
  /-- A comment up to the end of its line, or one between marks. -/
  | comment
  | operator
  /-- A character that belongs to no token of any other kind. -/
  | unknown
deriving DecidableEq

/-- Whether words of the kind can start a new line of a formatted statement. -/
def Kind.isKeyword : Kind → Bool
  | .verb | .clause => true
  | _ => false

/-- Whether tokens of the kind are words, keywords included. -/
def Kind.isBareWord : Kind → Bool
  | .verb | .clause | .word => true
  | _ => false

/-- Whether tokens of the kind can name an object. -/
def Kind.isName : Kind → Bool
  | .verb | .clause | .word | .delimited => true
  | _ => false

/-- A token of a script. -/
structure Token where
  kind : Kind
  text : Text
  span : Span
deriving DecidableEq

namespace Token

/-- A token that takes as much place as it has characters. -/
def placed (kind : Kind) (text : Text) (start : Int) : Token :=
  ⟨kind, text, start, start + text.length⟩

/-- The upper case of the token's text. -/
def key (t : Token) : Text := Unicode.upper t.text

/-- Whether the token spells the word, in whatever case. -/
def spells (w : String) (t : Token) : Bool := t.key == w.toList

/-- Whether the token is of the kind and, where a word is given, spells it in any case. -/
def isLike (t : Token) (kind : Kind) (word : Option Text) : Bool :=
  t.kind == kind && word.all fun w => t.key == w

/-- Whether the tokens have the same kind and the same text, wherever they were found. -/
def sameAs (s t : Token) : Bool := s.kind == t.kind && s.text == t.text

def isComment (t : Token) : Bool := t.kind == .comment

/-- The two dashes that start a comment which ends with its line. -/
def lineCommentMark : Text := ['-', '-']

/-- Whether the token is a comment that ends with its line. -/
def isLineComment (t : Token) : Bool := t.isComment && lineCommentMark.isPrefixOf t.text

/-- The tokens that are not comments. -/
def significant (ts : List Token) : List Token := ts.filter fun t => !t.isComment

end Token

end SqlScript
