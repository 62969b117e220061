/-!
# Shortest decimals

A positive float stands for all the reals that round to it: an interval around its own value. The
decimals with the fewest digits in that interval lie on the coarsest grid `10 ^ power` that has a
point in it, and of that grid only the two neighbours of the value can be closest. So the search
goes from coarse grids to fine ones and tests two candidates on each, in whole numbers throughout.
-/

namespace Reckoner.Decimal

/-- The number `mantissa * 2 ^ scale`, the value of a positive float. -/
structure Binary where
  mantissa : Nat
  scale : Int
  /-- whether the next float below is half as far away as the next float above -/
  narrow : Bool

/-- The number `coefficient * 10 ^ power`. -/
structure Numeral where
  coefficient : Nat
  power : Int
deriving DecidableEq, Repr

/-- Which of two equally close numerals is taken: the larger one or the even one. -/
inductive Tie where
  | up
  | even
deriving DecidableEq, Repr

/-- A grid of decimals beside a binary number, both in units so small that one step of the grid and
a quarter of the last binary place are whole numbers of units. -/
structure Grid where
  step : Nat
  quarter : Nat

namespace Binary

/-- The magnitude of the float with the given bits, which are neither a zero nor an infinity nor a
NaN. -/
def ofBits (bits : Nat) : Binary :=
  let field : Nat := bits / Nat.pow 2 52 % Nat.pow 2 11
  let fraction : Nat := bits % Nat.pow 2 52
  if field = 0 then ⟨fraction, -1074, false⟩
  else ⟨Nat.pow 2 52 + fraction, (field : Int) - 1075, fraction = 0 && 1 < field⟩

/-- The multiples of `10 ^ power` beside `b`. -/
def grid (b : Binary) (power : Int) : Grid where
  step := Nat.pow 10 power.toNat * Nat.pow 2 (2 - b.scale).toNat
  quarter := Nat.pow 2 (b.scale - 2).toNat * Nat.pow 10 (-power).toNat

/-- Whether the `n`-th point of the grid rounds to `b`; the ends of the interval do so if the
mantissa is even. -/
def covers (b : Binary) (g : Grid) (n : Nat) : Bool :=
  let low := (4 * b.mantissa - if b.narrow then 1 else 2) * g.quarter
  let high := (4 * b.mantissa + 2) * g.quarter
  if b.mantissa % 2 = 0 then low ≤ n * g.step && n * g.step ≤ high
  else low < n * g.step && n * g.step < high

/-- The grid point that is written for `b`: the closest one, if it rounds to `b`. -/
def onGrid? (tie : Tie) (b : Binary) (power : Int) : Option Numeral :=
  let g := b.grid power
  let value := 4 * b.mantissa * g.quarter
  let below := value / g.step
  match b.covers g below, b.covers g (below + 1) with
  | false, false => none
  | true, false => some ⟨below, power⟩
  | false, true => some ⟨below + 1, power⟩
  | true, true =>
    match compare (2 * value) ((2 * below + 1) * g.step) with
    | .lt => some ⟨below, power⟩
    | .gt => some ⟨below + 1, power⟩
    | .eq => if tie = .even && below % 2 = 0 then some ⟨below, power⟩ else some ⟨below + 1, power⟩

/-- A power of ten above `b`, and above it by no more than a few decimal places. -/
def ceiling (b : Binary) : Int := (b.mantissa.log2 + 1 + b.scale) * 30103 / 100000 + 2

/-- The value of `b` to its last digit. -/
def exact (b : Binary) : Numeral :=
  if 0 ≤ b.scale then ⟨b.mantissa * Nat.pow 2 b.scale.toNat, 0⟩
  else ⟨b.mantissa * Nat.pow 5 (-b.scale).toNat, b.scale⟩

/-- The closest to `b` of the numerals with the fewest digits that round to it. Seventeen digits
always suffice, so the grids below the ceiling reach far enough. -/
def shortest (tie : Tie) (b : Binary) : Numeral :=
  ((List.range 24).findSome? fun i : Nat => b.onGrid? tie (b.ceiling - i)).getD b.exact

end Binary

end Reckoner.Decimal
