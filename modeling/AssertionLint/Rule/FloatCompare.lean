import AssertionLint.Call
import AssertionLint.Context

/-!
# The rule against exact comparison of floating-point values

The rule reports equality assertions one of whose two compared values is
floating-point, and assertions about the truth of an equality between such
values. It proposes the assertion with a tolerance instead.
-/

namespace AssertionLint.FloatCompare

def name : String := "float-compare"

/-- Whether a call compares floating-point values for equality. The operator in
an assertion of truth has to agree with its polarity: equality is asserted to be
true, inequality to be false. -/
def flags (ctx : Context) (call : Call) : Logged Bool :=
  match call.assertion with
  | .equal | .equalValues | .exactly =>
    match call.args with
    | expected :: actual :: _ => ctx.eitherFloat expected actual
    | _ => pure false
  | .isTrue =>
    match call.args with
    | arg :: _ => ctx.isFloatComparison arg .eq
    | [] => pure false
  | .isFalse =>
    match call.args with
    | arg :: _ => ctx.isFloatComparison arg .notEq
    | [] => pure false
  | .other => pure false

/-- The proposal; it keeps to formatting variants where the call does. -/
def message (call : Call) : String :=
  let f := if call.function.isFormatting then "f" else ""
  "use " ++ call.receiver ++ ".InEpsilon" ++ f ++ " (or InDelta" ++ f ++ ")"

def finding (call : Call) : Finding := call.finding name (message call)

def check (ctx : Context) (call : Call) : Logged (Option Finding) := do
  if ← flags ctx call then
    Logged.note (.flagged call.text call.span)
    pure (some (finding call))
  else
    pure none

end AssertionLint.FloatCompare
