/-!
# Operators

The binary and unary operators of the analysed language with their spelling.
Six of the binary ones are comparisons, and each of these has an operator of
opposite truth value.
-/

namespace AssertionLint

inductive BinaryOp where
  | add | sub | mul | div | rem
  | bitAnd | bitOr | bitXor | andNot | shiftLeft | shiftRight
  | and | or
  | eq | notEq | lt | ltEq | gt | gtEq
  deriving DecidableEq, Repr

namespace BinaryOp

def all : List BinaryOp :=
  [add, sub, mul, div, rem, bitAnd, bitOr, bitXor, andNot, shiftLeft, shiftRight,
    and, or, eq, notEq, lt, ltEq, gt, gtEq]

/-- The spelling in source text. -/
def symbol : BinaryOp → String
  | add => "+"
  | sub => "-"
  | mul => "*"
  | div => "/"
  | rem => "%"
  | bitAnd => "&"
  | bitOr => "|"
  | bitXor => "^"
  | andNot => "&^"
  | shiftLeft => "<<"
  | shiftRight => ">>"
  | and => "&&"
  | or => "||"
  | eq => "=="
  | notEq => "!="
  | lt => "<"
  | ltEq => "<="
  | gt => ">"
  | gtEq => ">="

/-- The operator with a given spelling. -/
def ofSymbol? (symbol : String) : Option BinaryOp :=
  all.find? fun op => op.symbol == symbol

def isEquality : BinaryOp → Bool
  | eq | notEq => true
  | _ => false

def isComparison : BinaryOp → Bool
  | eq | notEq | lt | ltEq | gt | gtEq => true
  | _ => false

/-- The comparison that holds exactly when this one does not. -/
def negated : BinaryOp → Option BinaryOp
  | eq => some notEq
  | notEq => some eq
  | lt => some gtEq
  | gtEq => some lt
  | gt => some ltEq
  | ltEq => some gt
  | _ => none

theorem mem_all (op : BinaryOp) : op ∈ all := by
  cases op <;> decide

end BinaryOp

inductive UnaryOp where
  | neg | not | bitNot | deref | addrOf
  deriving DecidableEq, Repr

/-- The spelling in source text. -/
def UnaryOp.symbol : UnaryOp → String
  | neg => "-"
  | not => "!"
  | bitNot => "^"
  | deref => "*"
  | addrOf => "&"

end AssertionLint
