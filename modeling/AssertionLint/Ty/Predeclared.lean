import AssertionLint.Ty.Traits

/-!
# Predeclared types

The basic types of the analysed language together with the kinds of its untyped
constants. `invalid` stands for the type of an expression that could not be
typed.
-/

namespace AssertionLint

inductive Predeclared where
  | invalid
  | bool
  | int | int8 | int16 | int32 | int64
  | uint | uint8 | uint16 | uint32 | uint64 | uintptr
  | float32 | float64
  | complex64 | complex128
  | string
  | unsafePointer
  | untypedBool | untypedInt | untypedRune | untypedFloat | untypedComplex | untypedString
  | untypedNil
  deriving DecidableEq, Repr

namespace Predeclared

def traits : Predeclared → Traits
  | invalid | unsafePointer => .none
  | bool => .boolean
  | int | int8 | int16 | int32 | int64 => .integer
  | uint | uint8 | uint16 | uint32 | uint64 | uintptr => Traits.integer.union .unsigned
  | float32 | float64 => .float
  | complex64 | complex128 => .complex
  | string => .string
  | untypedBool => Traits.boolean.union .untyped
  | untypedInt | untypedRune => Traits.integer.union .untyped
  | untypedFloat => Traits.float.union .untyped
  | untypedComplex => Traits.complex.union .untyped
  | untypedString => Traits.string.union .untyped
  | untypedNil => .untyped

/-- Typed or untyped floating point. Complex types are not floating-point. -/
def isFloat (k : Predeclared) : Bool := k.traits.intersects .float

/-- The spelling in source text and in messages. -/
def name : Predeclared → String
  | invalid => "invalid type"
  | bool => "bool"
  | int => "int"
  | int8 => "int8"
  | int16 => "int16"
  | int32 => "int32"
  | int64 => "int64"
  | uint => "uint"
  | uint8 => "uint8"
  | uint16 => "uint16"
  | uint32 => "uint32"
  | uint64 => "uint64"
  | uintptr => "uintptr"
  | float32 => "float32"
  | float64 => "float64"
  | complex64 => "complex64"
  | complex128 => "complex128"
  | string => "string"
  | unsafePointer => "unsafe.Pointer"
  | untypedBool => "untyped bool"
  | untypedInt => "untyped int"
  | untypedRune => "untyped rune"
  | untypedFloat => "untyped float"
  | untypedComplex => "untyped complex"
  | untypedString => "untyped string"
  | untypedNil => "untyped nil"

/-- The types that source text can name without declaring or importing them. -/
def nameable : List Predeclared :=
  [bool, int, int8, int16, int32, int64, uint, uint8, uint16, uint32, uint64, uintptr,
    float32, float64, complex64, complex128, string]

/-- Second names of two of the integer types. -/
def aliases : List (String × Predeclared) :=
  [("rune", int32), ("byte", uint8)]

/-- The type that a name stands for in source text. -/
def ofName? (name : String) : Option Predeclared :=
  (nameable.find? fun k => k.name == name).or (aliases.lookup name)

theorem isFloat_iff (k : Predeclared) :
    k.isFloat = true ↔ k = float32 ∨ k = float64 ∨ k = untypedFloat := by
  cases k <;> decide

end Predeclared

end AssertionLint
