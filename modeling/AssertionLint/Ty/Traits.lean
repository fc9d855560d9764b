/-!
# Traits of predeclared types

A set of seven properties, one bit each: whether a type is boolean, integer,
unsigned, floating-point, complex, a string, or the type of an untyped constant.
Set operations are the word operations on the bits.
-/

namespace AssertionLint

structure Traits where
  bits : BitVec 7
  deriving DecidableEq, Repr

namespace Traits

def none : Traits := ⟨0#7⟩
def boolean : Traits := ⟨1#7⟩
def integer : Traits := ⟨2#7⟩
def unsigned : Traits := ⟨4#7⟩
def float : Traits := ⟨8#7⟩
def complex : Traits := ⟨16#7⟩
def string : Traits := ⟨32#7⟩
def untyped : Traits := ⟨64#7⟩
def all : Traits := ⟨127#7⟩

def union (s t : Traits) : Traits := ⟨s.bits ||| t.bits⟩

def inter (s t : Traits) : Traits := ⟨s.bits &&& t.bits⟩

def diff (s t : Traits) : Traits := ⟨s.bits &&& ~~~t.bits⟩

/-- Types with the operators `<`, `<=`, `>` and `>=`. -/
def ordered : Traits := (integer.union float).union string

def numeric : Traits := (integer.union float).union complex

/-- Types that constants can have. -/
def constant : Traits := (boolean.union numeric).union string

def isEmpty (s : Traits) : Bool := s == none

/-- Whether the two sets share a trait. -/
def intersects (s t : Traits) : Bool := !(s.inter t).isEmpty

/-- Whether all of `t` is in `s`. -/
def contains (s t : Traits) : Bool := s.inter t == t

/-- The traits among the low seven bits of a number. -/
def truncate (n : Nat) : Traits := ⟨BitVec.ofNat 7 n⟩

/-- The traits given by the bits of a number that has no other bit set. -/
def ofBits? (n : Nat) : Option Traits :=
  if n < 128 then some (truncate n) else Option.none

def toNat (s : Traits) : Nat := s.bits.toNat

/-- The single traits with their labels, lowest bit first. -/
def labels : List (Traits × String) :=
  [(boolean, "IS_BOOLEAN"), (integer, "IS_INTEGER"), (unsigned, "IS_UNSIGNED"),
    (float, "IS_FLOAT"), (complex, "IS_COMPLEX"), (string, "IS_STRING"),
    (untyped, "IS_UNTYPED")]

/-- The labels of a set, joined by bars. -/
def text (s : Traits) : String :=
  let present := labels.filterMap fun (t, label) => if s.contains t then some label else .none
  "BasicInfo(" ++ (if present.isEmpty then "0x0" else String.intercalate " | " present) ++ ")"

end Traits

end AssertionLint
