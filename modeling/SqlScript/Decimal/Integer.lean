import SqlScript.Text.Basic
import SqlScript.Unicode.DecimalDigit

namespace SqlScript.Decimal

/-!
# Integers in decimal notation

* `ofNat` and `ofInt` write a number in ASCII digits;
* `integer?` reads one, in the digits of any script, with an optional sign, with single
  underscores between digits, and with white space around it.
-/

/-- A natural number in decimal digits. -/
def ofNat (n : Nat) : Text := Nat.toDigits 10 n

/-- An integer in decimal digits, with a minus sign when it is negative. -/
def ofInt : Int → Text
  | .ofNat n => ofNat n
  | .negSucc n => '-' :: ofNat (n + 1)

/-- The largest number of digits that is read. -/
def maxDigits : Nat := 4300

/-- The values of a sequence of digits, in which single underscores may stand between two
    digits. -/
def digitValues? : Text → Option (List Nat)
  | [] => none
  | [c] => (Unicode.digitValue? c).map fun d => [d]
  | c :: '_' :: rest => (Unicode.digitValue? c).bind fun d => (digitValues? rest).map (d :: ·)
  | c :: rest => (Unicode.digitValue? c).bind fun d => (digitValues? rest).map (d :: ·)

/-- The natural number with the given digits. -/
def ofDigits (ds : List Nat) : Nat := ds.foldl (fun n d => 10 * n + d) 0

/-- The natural number that the text denotes. -/
def natural? (t : Text) : Option Nat :=
  (digitValues? t).bind fun ds => if ds.length ≤ maxDigits then some (ofDigits ds) else none

/-- The integer that the text denotes. -/
def integer? (t : Text) : Option Int :=
  match Text.dropEnd Unicode.isWhiteSpace (t.dropWhile Unicode.isWhiteSpace) with
  | '+' :: rest => (natural? rest).map (Int.ofNat ·)
  | '-' :: rest => (natural? rest).map fun n => -Int.ofNat n
  | rest => (natural? rest).map (Int.ofNat ·)

end SqlScript.Decimal
