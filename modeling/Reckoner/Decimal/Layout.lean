import Reckoner.Decimal.Shortest

/-!
# Layouts of decimals

How the digits of a float are set out: positionally or with an exponent, with or without a fraction
for whole numbers. Each kind of output has one `Layout` of its own, beside what it writes.
-/

namespace Reckoner.Decimal

/-- The decisions of a written form of floats. -/
structure Layout where
  /-- whether a number with its leading digit at `10 ^ e` is written without an exponent -/
  positional : Int → Bool
  /-- whether a whole number written without an exponent ends in `.0` -/
  fraction : Bool
  /-- whether a positive exponent carries a sign -/
  plus : Bool
  tie : Tie
  infinity : String
  minusInfinity : String
  nan : String

/-- The decimal digits of `n`, the highest first. -/
def digits (n : Nat) : List Char := Nat.toDigits 10 n

/-- The numeral with its point in place and no exponent. -/
def Numeral.inPlace (fraction : Bool) (d : Numeral) : List Char :=
  let ds := digits d.coefficient
  if 0 ≤ d.power then
    ds ++ List.replicate d.power.toNat '0' ++ if fraction then ['.', '0'] else []
  else
    let places := (-d.power).toNat
    if places < ds.length then
      ds.take (ds.length - places) ++ '.' :: ds.drop (ds.length - places)
    else
      '0' :: '.' :: (List.replicate (places - ds.length) '0' ++ ds)

/-- The power of ten of the leading digit. -/
def Numeral.leading (d : Numeral) : Int := d.power + (digits d.coefficient).length - 1

/-- An exponent with its sign. -/
def exponent (plus : Bool) (e : Int) : List Char :=
  if e < 0 then '-' :: digits e.natAbs
  else if plus then '+' :: digits e.natAbs else digits e.natAbs

/-- The numeral with its point behind the leading digit, and the exponent that makes up for it. -/
def Numeral.scientific (plus : Bool) (d : Numeral) : List Char :=
  let mantissa :=
    match digits d.coefficient with
    | [] => []
    | [c] => [c]
    | c :: cs => c :: '.' :: cs
  mantissa ++ 'e' :: exponent plus d.leading

namespace Layout

/-- The numeral in the layout. -/
def numeral (l : Layout) (d : Numeral) : List Char :=
  if l.positional d.leading then d.inPlace l.fraction else d.scientific l.plus

/-- The float in the layout. A zero keeps its sign, a NaN has none. -/
def write (l : Layout) (x : Float) : String :=
  let bits := x.toBits.toNat
  let negative := Nat.pow 2 63 ≤ bits
  let size := bits % Nat.pow 2 63
  let top := 2047 * Nat.pow 2 52
  if top < size then l.nan
  else if size = top then if negative then l.minusInfinity else l.infinity
  else
    let d := if size = 0 then ⟨0, 0⟩ else (Binary.ofBits size).shortest l.tie
    String.ofList (if negative then '-' :: l.numeral d else l.numeral d)

end Layout

end Reckoner.Decimal
