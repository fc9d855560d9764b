import AssertionLint.Decimal.Shortest

/-!
# Decimals as text

A decimal is written positionally when its leading digit is neither too large
nor too small, and with an exponent otherwise.
-/

namespace AssertionLint.Decimal

/-- How decimals are written. -/
structure Layout where
  /-- Smallest exponent of the leading digit that is written positionally. -/
  smallest : Int
  /-- Largest exponent of the leading digit that is written positionally. -/
  largest : Int
  /-- Sign in front of a nonnegative exponent. -/
  plus : String
  /-- Least number of digits in an exponent. -/
  exponentWidth : Nat

private def zeros (n : Nat) : List Char := List.replicate n '0'

/-- Positional notation with at least one digit on each side of the point. -/
def positional (digits : List Char) (top : Int) : List Char :=
  if top < 0 then '0' :: '.' :: (zeros (-top - 1).toNat ++ digits)
  else
    let whole := top.toNat + 1
    let fraction := digits.drop whole
    digits.take whole ++ zeros (whole - digits.length) ++ '.' ::
      (if fraction.isEmpty then ['0'] else fraction)

/-- Notation with one digit before the point, which is left out if nothing
follows, and an exponent. -/
def scientific (layout : Layout) (digits : List Char) (top : Int) : List Char :=
  let fraction := digits.drop 1
  let exponent := Nat.toDigits 10 top.natAbs
  digits.take 1 ++ (if fraction.isEmpty then [] else '.' :: fraction) ++
    'e' :: ((if top < 0 then "-" else layout.plus).toList ++
      zeros (layout.exponentWidth - exponent.length) ++ exponent)

/-- The text of a decimal. Zero is written positionally. -/
def text (layout : Layout) (d : Decimal) : String :=
  let digits := Nat.toDigits 10 d.digits
  let top := d.exponent + digits.length - 1
  if d.digits = 0 then "0.0"
  else if layout.smallest ≤ top ∧ top ≤ layout.largest then String.ofList (positional digits top)
  else String.ofList (scientific layout digits top)

/-- The text of a finite double, by its bits. -/
def doubleText (layout : Layout) (bits : UInt64) : String :=
  (if bits >>> 63 = 1 then "-" else "") ++ (shortest bits).text layout

end AssertionLint.Decimal
