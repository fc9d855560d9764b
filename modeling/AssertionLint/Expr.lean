import AssertionLint.Operator
import AssertionLint.Span

/-!
# Expressions

Expressions refer to their parts by number, so a node is a flat value: its
shape, which holds the numbers of its operands, and its span. Numbers need not
refer to anything; what they mean is decided by the `Arena` they are looked up
in.
-/

namespace AssertionLint

/-- The number of an expression. -/
structure ExprId where
  raw : UInt32
  deriving DecidableEq, Repr

namespace ExprId

/-- The number that no expression ever has. -/
def invalid : ExprId := ⟨UInt32.ofNat (UInt32.size - 1)⟩

instance : Inhabited ExprId := ⟨invalid⟩

def index (id : ExprId) : Nat := id.raw.toNat

def isValid (id : ExprId) : Bool := id != invalid

/-- The text under which the log mentions an expression. -/
def text (id : ExprId) : String :=
  if id.isValid then "ExprId(" ++ toString id.index ++ ")" else "ExprId::INVALID"

instance : Ord ExprId := ⟨compareOn ExprId.raw⟩

instance : Std.TransOrd ExprId := inferInstanceAs (Std.TransCmp (compareOn ExprId.raw))

instance : Std.LawfulEqOrd ExprId where
  eq_of_compare {a b} h := by
    have h : a.raw = b.raw := Std.LawfulEqOrd.eq_of_compare h
    cases a
    cases b
    simp_all

end ExprId

/-- Literals. Floating-point and imaginary values are kept as the bits of a
double, so that two literals are equal exactly when their bits are. -/
inductive Literal where
  | int (value : UInt64)
  | float (bits : UInt64)
  | imag (bits : UInt64)
  | char (value : Char)
  | str (value : String)
  deriving DecidableEq, Repr

/-- The bits of a floating-point literal. -/
def Literal.floatBits? : Literal → Option UInt64
  | float bits => some bits
  | _ => none

/-- What kind of expression a node is, and the numbers of its operands. -/
inductive Shape where
  | ident (name : String)
  | literal (value : Literal)
  | binary (op : BinaryOp) (left right : ExprId)
  | unary (op : UnaryOp) (operand : ExprId)
  | paren (inner : ExprId)
  | call (function : ExprId) (args : List ExprId)
  | selector (base : ExprId) (field : String)
  | index (base position : ExprId)
  /-- Anything that is not described further. -/
  | other
  deriving DecidableEq, Repr

/-- Operator and operands of a binary expression. -/
def Shape.binary? : Shape → Option (BinaryOp × ExprId × ExprId)
  | binary op left right => some (op, left, right)
  | _ => none

structure Expr where
  shape : Shape
  span : Span
  deriving DecidableEq, Repr

end AssertionLint
