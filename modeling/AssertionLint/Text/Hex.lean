/-!
# Hexadecimal text

Numbers written in base sixteen without leading zeros, in either case.
-/

namespace AssertionLint.Text

/-- The number `n` in base sixteen with small letters. -/
def lowerHex (n : Nat) : String :=
  String.ofList (Nat.toDigits 16 n)

/-- The number `n` in base sixteen with capital letters. -/
def upperHex (n : Nat) : String :=
  String.ofList ((Nat.toDigits 16 n).map Char.toUpper)

end AssertionLint.Text
