/-!
# Shortest decimals

The decimal with the fewest digits that rounds to a given double, and of several
such decimals the nearest. A double is `m · 2 ^ q` with natural `m`. The numbers
that round to it form an interval whose ends belong to it exactly when `m` is
even. For each number of digits the only candidates are the two neighbours of
the double on the grid of decimals with that many digits; all comparisons are
between natural numbers, after clearing denominators.
-/

namespace AssertionLint

/-- The number `digits · 10 ^ exponent`. -/
structure Decimal where
  digits : Nat
  exponent : Int
  deriving DecidableEq, Repr

namespace Decimal

/-- A nonnegative fraction. The denominator is meant to be positive. -/
structure Ratio where
  num : Nat
  den : Nat

namespace Ratio

/-- The fraction `n · b ^ e` for a positive base. -/
def scaled (n b : Nat) (e : Int) : Ratio :=
  if 0 ≤ e then ⟨n * b.pow e.toNat, 1⟩ else ⟨n, b.pow (-e).toNat⟩

def lt (x y : Ratio) : Bool := x.num * y.den < y.num * x.den

/-- How far apart two fractions are. -/
def dist (x y : Ratio) : Ratio :=
  let a := x.num * y.den
  let b := y.num * x.den
  ⟨(a - b) + (b - a), x.den * y.den⟩

/-- The quotient of a fraction by `10 ^ e`. -/
def shiftDown (x : Ratio) (e : Int) : Ratio :=
  if 0 ≤ e then ⟨x.num, x.den * Nat.pow 10 e.toNat⟩
  else ⟨x.num * Nat.pow 10 (-e).toNat, x.den⟩

def floor (x : Ratio) : Nat := x.num / x.den

end Ratio

def toRatio (d : Decimal) : Ratio := .scaled d.digits 10 d.exponent

/-- The numbers that round to one double. -/
structure Interval where
  low : Ratio
  high : Ratio
  /-- Whether the ends belong to it. -/
  closed : Bool

def Interval.contains (i : Interval) (x : Ratio) : Bool :=
  if i.closed then !x.lt i.low && !i.high.lt x else i.low.lt x && x.lt i.high

/-- The smallest significand of a double with a full number of bits. -/
def fullSignificand : Nat := 0x10000000000000

/-- Magnitude of the double with the given bits, as `m` and `q`. -/
def parts (bits : UInt64) : Nat × Int :=
  let biased := (bits >>> 52).toNat % 2048
  let fraction := bits.toNat % fullSignificand
  if biased = 0 then (fraction, -1074) else (fraction + fullSignificand, (biased : Int) - 1075)

/-- The numbers that round to `m · 2 ^ q`. Below a power of two doubles lie twice
as close as above it, except at the smallest exponent. -/
def rounding (m : Nat) (q : Int) : Interval where
  low := .scaled (4 * m - (if m = fullSignificand ∧ q > -1074 then 1 else 2)) 2 (q - 2)
  high := .scaled (4 * m + 2) 2 (q - 2)
  closed := m % 2 == 0

/-- Exponent of the leading decimal digit of a positive fraction. -/
def leading (x : Ratio) : Int :=
  if x.den ≤ x.num then ((Nat.toDigits 10 (x.num / x.den)).length : Int) - 1
  else -(((List.range 400).find? fun k => x.den ≤ x.num * Nat.pow 10 k).getD 400 : Nat)

/-- The nearer of the two neighbours of `x` on the grid of multiples of
`10 ^ e` that lie in the interval; between equally near ones the even one. -/
def nearest? (i : Interval) (x : Ratio) (e : Int) : Option Decimal :=
  let below : Decimal := ⟨(x.shiftDown e).floor, e⟩
  let above : Decimal := ⟨below.digits + 1, e⟩
  match i.contains below.toRatio, i.contains above.toRatio with
  | true, true =>
    let b := x.dist below.toRatio
    let a := x.dist above.toRatio
    if b.lt a || (!a.lt b && below.digits % 2 == 0) then some below else some above
  | true, false => some below
  | false, true => some above
  | false, false => none

/-- Moves zeros at the end of the digits into the exponent, at most `n` of them. -/
def strip (d : Decimal) : Nat → Decimal
  | 0 => d
  | n + 1 =>
    if d.digits ≠ 0 ∧ d.digits % 10 = 0 then strip ⟨d.digits / 10, d.exponent + 1⟩ n else d

/-- The shortest decimal that rounds to the magnitude of a finite double. Seventeen
digits always suffice. -/
def shortest (bits : UInt64) : Decimal :=
  let (m, q) := parts bits
  if m = 0 then ⟨0, 0⟩
  else
    let x := Ratio.scaled m 2 q
    let top := leading x
    let found := (List.range 17).findSome? fun (n : Nat) => nearest? (rounding m q) x (top - n)
    (found.getD ⟨0, 0⟩).strip 17

end Decimal

end AssertionLint
