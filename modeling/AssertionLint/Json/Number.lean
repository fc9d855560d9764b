import AssertionLint.Decimal.Layout

/-!
# Numbers in JSON text

A number without fraction and exponent that fits into 64 bits is read as an
integer. Any other number is read as a double: as many leading digits as fit
into 64 bits make the significand, and this is multiplied or divided by a power
of ten. A number too large for a double is malformed.
-/

namespace AssertionLint.Json

inductive Number where
  | integer (value : Int)
  /-- A finite double, by its bits. -/
  | double (bits : UInt64)
  deriving DecidableEq, Repr

namespace Number

/-- Doubles are written positionally from `0.00001` up to sixteen digits before
the point, and otherwise with an exponent that always has a sign. -/
def layout : Decimal.Layout where
  smallest := -5
  largest := 15
  plus := "+"
  exponentWidth := 1

def digitValue (c : Char) : Nat := c.toNat - '0'.toNat

/-- Appends digits to a significand for as long as it fits into 64 bits. Returns
the significand and the digits that are left over. -/
def absorb (significand : Nat) : List Char → Nat × List Char
  | [] => (significand, [])
  | c :: cs =>
    let next := significand * 10 + digitValue c
    if next < UInt64.size then absorb next cs else (significand, c :: cs)

def powerOfTen (e : Nat) : Float := Float.ofScientific 1 false e

/-- Largest power of ten that is a double. -/
def maxPower : Nat := 308

/-- Division by `10 ^ e`, in steps by the largest power of ten. -/
def divPower (x : Float) (e : Nat) : Float :=
  if e ≤ maxPower then x / powerOfTen e
  else if x == 0 then x
  else divPower (x / powerOfTen maxPower) (e - maxPower)
termination_by e
decreasing_by
  unfold maxPower at *
  omega

/-- The double for `significand · 10 ^ e`, if this is finite. -/
def scale? (significand : Nat) (e : Int) : Option Float :=
  let x := (UInt64.ofNat significand).toFloat
  if e < 0 then some (divPower x e.natAbs)
  else if e.natAbs ≤ maxPower then
    let y := x * powerOfTen e.natAbs
    if y.isInf then none else some y
  else if x == 0 then some x
  else none

/-- The spelling of a number, cut into its parts. -/
structure Parts where
  negative : Bool
  whole : List Char
  fraction : Option (List Char)
  /-- Whether the exponent is negative, and its digits. -/
  exponent : Option (Bool × List Char)

/-- Exponents with a larger magnitude are beyond all doubles. -/
def maxExponent : Nat := 0x7fffffff

/-- The exponent of an optional exponent part. A magnitude above the bound is
`none`. -/
def exponentValue? : Option (Bool × List Char) → Option Int
  | none => some 0
  | some (negative, digits) =>
    let n := digits.foldl (fun n c => n * 10 + digitValue c) 0
    if n > maxExponent then none else some (if negative then -n else n)

/-- The double that a number stands for. -/
def Parts.double? (p : Parts) : Option Number :=
  let (whole, dropped) := absorb 0 p.whole
  let fraction := p.fraction.getD []
  let (significand, ignored) := absorb whole fraction
  let places : Int := (dropped.length : Int) - (fraction.length - ignored.length : Nat)
  let magnitude : Option Float :=
    match exponentValue? p.exponent with
    | some e => scale? significand (places + e)
    | none =>
      if significand ≠ 0 ∧ p.exponent.any (!·.1) then none else some 0
  magnitude.map fun x => .double (if p.negative then (-x).toBits else x.toBits)

/-- The value of a number: an integer if it is one and fits into 64 bits. A
negative zero is a double. -/
def Parts.value? (p : Parts) : Option Number :=
  match p.fraction, p.exponent, absorb 0 p.whole with
  | none, none, (n, []) =>
    if !p.negative then some (.integer n)
    else if 0 < n ∧ n ≤ 0x8000000000000000 then some (.integer (-n))
    else p.double?
  | _, _, _ => p.double?

/-- Digits that stand first in the text and what follows them. -/
def digits (cs : List Char) : List Char × List Char :=
  (cs.takeWhile Char.isDigit, cs.dropWhile Char.isDigit)

/-- The digits before the point: a zero stands only by itself. -/
def whole? (cs : List Char) : Option (List Char × List Char) :=
  match digits cs with
  | ([], _) => none
  | ('0' :: _ :: _, _) => none
  | r => some r

/-- A point with the digits behind it, if the text goes on with a point. -/
def fraction? : List Char → Option (Option (List Char) × List Char)
  | '.' :: cs =>
    match digits cs with
    | ([], _) => none
    | (ds, rest) => some (some ds, rest)
  | cs => some (none, cs)

/-- The sign of an exponent: whether it is negative. -/
def exponentSign : List Char → Bool × List Char
  | '+' :: cs => (false, cs)
  | '-' :: cs => (true, cs)
  | cs => (false, cs)

/-- An exponent, if the text goes on with one. -/
def exponent? : List Char → Option (Option (Bool × List Char) × List Char)
  | c :: cs =>
    if c = 'e' ∨ c = 'E' then
      let (negative, cs) := exponentSign cs
      match digits cs with
      | ([], _) => none
      | (ds, rest) => some (some (negative, ds), rest)
    else some (none, c :: cs)
  | [] => some (none, [])

/-- Reads the number at the start of a text, behind its sign if it has one. -/
def read? (negative : Bool) (cs : List Char) : Option (Number × List Char) := do
  let (whole, cs) ← whole? cs
  let (fraction, cs) ← fraction? cs
  let (exponent, cs) ← exponent? cs
  let value ← Parts.value? ⟨negative, whole, fraction, exponent⟩
  pure (value, cs)

/-! ## Readers move forward -/

theorem length_digits (cs : List Char) :
    (digits cs).1.length + (digits cs).2.length = cs.length := by
  rw [digits, ← List.length_append, List.takeWhile_append_dropWhile]

theorem length_of_whole? {cs ds rest : List Char} (h : whole? cs = some (ds, rest)) :
    rest.length < cs.length := by
  have hd := length_digits cs
  unfold whole? at h
  split at h
  · simp at h
  · simp at h
  · rename_i hn _
    simp only [Option.some.injEq] at h
    have hp : 0 < ds.length := List.length_pos_iff.2 fun he => hn rest (by rw [h, he])
    rw [h] at hd
    simp only at hd
    omega

theorem length_of_fraction? {cs rest : List Char} {ds : Option (List Char)}
    (h : fraction? cs = some (ds, rest)) : rest.length ≤ cs.length := by
  unfold fraction? at h
  split at h
  · rename_i cs
    have hd := length_digits cs
    split at h
    · simp at h
    · rename_i hr
      simp only [Option.some.injEq, Prod.mk.injEq] at h
      rw [hr] at hd
      simp only [List.length_cons, ← h.2] at hd ⊢
      omega
  · simp only [Option.some.injEq, Prod.mk.injEq] at h
    exact Nat.le_of_eq (congrArg List.length h.2.symm)

theorem length_exponentSign (cs : List Char) : (exponentSign cs).2.length ≤ cs.length := by
  unfold exponentSign
  split <;> simp

theorem length_of_exponent? {cs rest : List Char} {e : Option (Bool × List Char)}
    (h : exponent? cs = some (e, rest)) : rest.length ≤ cs.length := by
  unfold exponent? at h
  split at h
  · rename_i c cs
    have hs := length_exponentSign cs
    have hd := length_digits (exponentSign cs).2
    split at h
    · simp only at h
      split at h
      · simp at h
      · rename_i hr
        simp only [Option.some.injEq, Prod.mk.injEq] at h
        rw [hr] at hd
        simp only [List.length_cons, ← h.2] at hd ⊢
        omega
    · simp only [Option.some.injEq, Prod.mk.injEq] at h
      exact Nat.le_of_eq (congrArg List.length h.2.symm)
  · simp only [Option.some.injEq, Prod.mk.injEq] at h
    exact Nat.le_of_eq (congrArg List.length h.2.symm)

theorem length_of_read? {negative : Bool} {cs rest : List Char} {n : Number}
    (h : read? negative cs = some (n, rest)) : rest.length < cs.length := by
  simp only [read?, Option.bind_eq_bind, Option.bind_eq_some_iff, Option.pure_def,
    Option.some.injEq, Prod.mk.injEq, Prod.exists] at h
  obtain ⟨_, a, ha, _, b, hb, _, c, hc, _, _, _, rfl⟩ := h
  have h₁ := length_of_whole? ha
  have h₂ := length_of_fraction? hb
  have h₃ := length_of_exponent? hc
  omega

end Number

end AssertionLint.Json
