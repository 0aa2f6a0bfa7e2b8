import SqlScript.Decimal.Integer

namespace SqlScript.Decimal

/-!
# Shortest decimals

The shortest decimal notation that a floating point number can be read back from.

* `Binary` is a positive number `m * 2 ^ q`, with the interval of the reals that are rounded
  to it;
* `Binary.shortest` is the decimal with the fewest digits in that interval, and of those the
  one that is nearest to the number;
* `ofFloat` writes a floating point number with these digits.
-/

/-! ### Decimals and binary fractions -/

/-- The positive decimal `digits * 10 ^ exponent`. -/
structure Scientific where
  digits : Nat
  exponent : Int

/-- The positive number `mantissa * 2 ^ exponent`. `lowest` tells that the numbers below it
    are twice as dense as those above it. -/
structure Binary where
  mantissa : Nat
  exponent : Int
  lowest : Bool

/-- `b ^ e` when the exponent is not negative, else one. -/
def power (b : Nat) (e : Int) : Nat := b.pow e.toNat

namespace Binary

/-- In quarters of the last binary place: the number itself. -/
def quarters (x : Binary) : Nat := 4 * x.mantissa

/-- In quarters of the last binary place: the lower end of the reals that are rounded to the
    number. -/
def lowerEnd (x : Binary) : Nat := x.quarters - (if x.lowest then 1 else 2)

/-- In quarters of the last binary place: the upper end of the reals that are rounded to the
    number. -/
def upperEnd (x : Binary) : Nat := x.quarters + 2

/-- The number of steps of `10 ^ e` in a number of quarters of the last binary place of `x`,
    as a numerator and a denominator. -/
def inSteps (x : Binary) (e : Int) (quarters : Nat) : Nat × Nat :=
  let q := x.exponent - 2
  (quarters * power 2 q * power 10 (-e), power 2 (-q) * power 10 e)

/-- Whether `d * 10 ^ e` is rounded to the number. The ends of the interval are when the
    mantissa is even. -/
def reads (x : Binary) (e : Int) (d : Nat) : Bool :=
  let lower := x.inSteps e x.lowerEnd
  let upper := x.inSteps e x.upperEnd
  if x.mantissa % 2 = 0 then lower.1 ≤ d * lower.2 && d * upper.2 ≤ upper.1
  else lower.1 < d * lower.2 && d * upper.2 < upper.1

/-- The decimal with the last place `10 ^ e` that is rounded to the number, if there is one:
    of the two next to the number the nearer one, and of two that are equally near the even
    one. -/
def onGrid? (x : Binary) (e : Int) : Option Scientific :=
  let value := x.inSteps e x.quarters
  let below := value.1 / value.2
  let twiceRest := 2 * (value.1 % value.2)
  match x.reads e below, x.reads e (below + 1) with
  | true, true =>
    if twiceRest < value.2 ∨ (twiceRest = value.2 ∧ below % 2 = 0) then some ⟨below, e⟩
    else some ⟨below + 1, e⟩
  | true, false => some ⟨below, e⟩
  | false, true => some ⟨below + 1, e⟩
  | false, false => none

/-- The exponent of the first decimal place of the number. -/
def firstPlace (x : Binary) : Int :=
  let value := x.inSteps 0 x.quarters
  if value.2 ≤ value.1 then ((ofNat (value.1 / value.2)).length : Int) - 1
  else
    let places := (ofNat (value.2 / value.1)).length
    if value.2 ≤ value.1 * power 10 (places - 1) then -((places : Int) - 1) else -(places : Int)

/-- Enough decimal digits to tell all floating point numbers apart. -/
def maxPrecision : Nat := 17

/-- The shortest decimal that is rounded to the number. -/
def shortest (x : Binary) : Scientific :=
  let grids := (List.range maxPrecision).map fun n => x.firstPlace - Int.ofNat n
  (grids.findSome? x.onGrid?).getD ⟨x.mantissa, x.exponent⟩

end Binary

/-! ### Floating point numbers -/

/-- What a floating point number is. -/
inductive FloatClass where
  | notANumber
  | infinite (negative : Bool)
  | zero (negative : Bool)
  | nonzero (negative : Bool) (magnitude : Binary)

/-- The number of values that as many bits can have. -/
def bitValues (n : Nat) : Nat := power 2 n

/-- What the 64 bits of a floating point number say: a sign, 11 bits of exponent and 52 bits
    of mantissa. -/
def FloatClass.ofBits (bits : Nat) : FloatClass :=
  let negative : Bool := bitValues 63 ≤ bits
  let biased : Nat := bits / bitValues 52 % bitValues 11
  let fraction : Nat := bits % bitValues 52
  if biased = bitValues 11 - 1 then
    if fraction = 0 then .infinite negative else .notANumber
  else if biased = 0 then
    if fraction = 0 then .zero negative else .nonzero negative ⟨fraction, -1074, false⟩
  else
    .nonzero negative ⟨bitValues 52 + fraction, (biased : Int) - 1075, fraction = 0 && 1 < biased⟩

/-- How floating point numbers are written. -/
structure FloatFormat where
  /-- The smallest exponent of a first decimal place that is written without an exponent. -/
  positionalFrom : Int
  /-- The first exponent of a first decimal place that is written with an exponent again. -/
  scientificFrom : Int
  /-- The least number of digits of an exponent. -/
  exponentDigits : Nat
  infinity : Text
  notANumber : Text

/-- Numbers from `0.0001` up to `10 ^ 16` have no exponent, the others one of at least two
    digits with its sign. -/
def FloatFormat.standard : FloatFormat :=
  ⟨-4, 16, 2, "inf".toList, "nan".toList⟩

/-- The digits of a decimal without zeros at the end, and the exponent of its first place. -/
def Scientific.normal (s : Scientific) : Text × Int :=
  let digits := ofNat s.digits
  (Text.dropEnd (· == '0') digits, s.exponent + (digits.length : Int) - 1)

/-- Digits without an exponent, with at least one digit on each side of the point. -/
def positional (digits : Text) (firstPlace : Int) : Text :=
  if firstPlace < 0 then
    '0' :: '.' :: (List.replicate (-firstPlace - 1).toNat '0' ++ digits)
  else
    let whole := firstPlace.toNat + 1
    let zeros := List.replicate (whole - digits.length) '0'
    let fraction := digits.drop whole
    digits.take whole ++ zeros ++ '.' :: (if fraction.isEmpty then ['0'] else fraction)

/-- Digits with an exponent, and with a point when there are several of them. -/
def scientific (format : FloatFormat) (digits : Text) (firstPlace : Int) : Text :=
  let magnitude := ofNat firstPlace.natAbs
  let zeros := List.replicate (format.exponentDigits - magnitude.length) '0'
  let fraction := digits.drop 1
  digits.take 1 ++ (if fraction.isEmpty then [] else '.' :: fraction) ++
    'e' :: (if firstPlace < 0 then '-' else '+') :: (zeros ++ magnitude)

/-- A positive decimal, with or without an exponent as the format says. -/
def Scientific.toText (format : FloatFormat) (s : Scientific) : Text :=
  let (digits, firstPlace) := s.normal
  if format.positionalFrom ≤ firstPlace ∧ firstPlace < format.scientificFrom then
    positional digits firstPlace
  else scientific format digits firstPlace

/-- A minus sign in front of what is negative. -/
def signed (negative : Bool) (t : Text) : Text := if negative then '-' :: t else t

/-- What the bits of a floating point number denote, in the shortest notation. -/
def FloatClass.toText (format : FloatFormat) : FloatClass → Text
  | .notANumber => format.notANumber
  | .infinite negative => signed negative format.infinity
  | .zero negative => signed negative (positional ['0'] 0)
  | .nonzero negative magnitude => signed negative (magnitude.shortest.toText format)

/-- A floating point number in the shortest notation that it can be read back from. -/
def ofFloat (x : Float) : Text :=
  (FloatClass.ofBits x.toBits.toNat).toText FloatFormat.standard

end SqlScript.Decimal
