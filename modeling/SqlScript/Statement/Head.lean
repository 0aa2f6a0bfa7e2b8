import SqlScript.Token.Basic

namespace SqlScript

/-!
# Labels and governing tokens

The type of a statement is told by its governing token, which is the first one that is not a
comment, or the one after a label. A label is a word with a colon behind it.

* `splitLabel` takes the label off a sequence of tokens without comments;
* `governing?` is the governing token of a sequence of tokens;
* `governingPosition?` is its position, found from the kinds alone, so that it applies to tokens
  and to nodes;
* `labelColon?` is the position of the colon between a label and the governing token.
-/

/-- The label at the front of a sequence of tokens without comments, and what follows its colon.
    There is a label only when something follows it. -/
def splitLabel : List Token → Option Token × List Token
  | label :: colon :: t :: rest =>
    if label.kind = .word ∧ colon.kind = .colon then (some label, t :: rest)
    else (none, label :: colon :: t :: rest)
  | ts => (none, ts)

/-- The tokens without the label are the last ones. -/
theorem splitLabel_suffix (ts : List Token) : (splitLabel ts).2 <:+ ts := by
  unfold splitLabel
  split
  · split
    · exact ⟨[_, _], rfl⟩
    · exact List.suffix_refl _
  · exact List.suffix_refl _

/-- The tokens that are not comments, from the governing one on. -/
def governed (ts : List Token) : List Token := (splitLabel (Token.significant ts)).2

/-- The governing token. -/
def governing? (ts : List Token) : Option Token := (governed ts).head?

/-- The verb that governs the tokens. -/
def governingVerb? (ts : List Token) : Option Verb :=
  (governing? ts).bind fun t => Verb.ofKey? t.key

/-- The positions of all that is not a comment in a sequence of tokens and blocks. -/
def significantPositions (kinds : List (Option Kind)) : List Nat :=
  (kinds.zipIdx.filter fun p => p.1 != some .comment).map (·.2)

/-- The position of the governing token in a sequence of tokens and blocks. -/
def governingPosition? (kinds : List (Option Kind)) : Option Nat :=
  match significantPositions kinds with
  | [] => none
  | i :: j :: k :: _ =>
    if kinds[i]? = some (some .word) ∧ kinds[j]? = some (some .colon) then some k else some i
  | i :: _ => some i

/-- The position of the colon behind a label, when the governing token comes right after it. -/
def labelColon? (kinds : List (Option Kind)) : Option Nat :=
  match governingPosition? kinds with
  | some (n + 2) => if kinds[n + 1]? = some (some .colon) then some (n + 1) else none
  | _ => none

end SqlScript
