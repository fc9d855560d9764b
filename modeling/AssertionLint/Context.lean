import AssertionLint.Arena
import AssertionLint.Log
import AssertionLint.Ty.Table

/-!
# Questions about expressions

What rules may ask about the expressions of one file. An expression whose type
is not known is not floating-point, so that missing types can only hide a
finding and never cause one. Each question about an unknown type is noted.
-/

namespace AssertionLint

/-- The expressions of a file and what is known about their types. -/
structure Context where
  arena : Arena
  types : Typing

namespace Context

/-- Whether the type of an expression is floating-point. -/
def isFloat (ctx : Context) (id : ExprId) : Logged Bool :=
  match ctx.types id with
  | some t => pure t.isFloat
  | none => do
    Logged.note (.unresolved id)
    pure false

/-- Whether one of two expressions is floating-point. The second is only looked
at if the first is not. -/
def eitherFloat (ctx : Context) (left right : ExprId) : Logged Bool := do
  if ← ctx.isFloat left then pure true else ctx.isFloat right

/-- Whether an expression is a comparison by exactly `op` with a floating-point
operand. A comparison in parentheses is none. -/
def isFloatComparison (ctx : Context) (id : ExprId) (op : BinaryOp) : Logged Bool :=
  match ctx.arena.binary? id with
  | some (actual, left, right) =>
    if actual = op then ctx.eitherFloat left right else pure false
  | none => pure false

end Context

end AssertionLint
