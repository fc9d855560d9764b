import AssertionLint.Span

/-!
# Findings

A finding is what a rule reports about one call: where, what to do instead, and
possibly some fixes. Findings are ordered by span, then by the name of the rule,
then by message; fixes play no part in the order.
-/

namespace AssertionLint

/-- Replacement of the text at a span. -/
structure Edit where
  span : Span
  text : String
  deriving DecidableEq, Repr

/-- Edits that are applied together. -/
structure Fix where
  message : String
  edits : List Edit
  deriving DecidableEq, Repr

structure Finding where
  /-- Name of the rule that reports it. -/
  rule : String
  message : String
  span : Span
  fixes : List Fix := []
  deriving DecidableEq, Repr

namespace Finding

/-- The text `rule: message`. -/
def text (f : Finding) : String := f.rule ++ ": " ++ f.message

def hasFixes (f : Finding) : Bool := !f.fixes.isEmpty

/-- By span, then rule, then message. Texts compare by code points. -/
def order : Finding → Finding → Ordering :=
  compareLex (compareOn span) (compareLex (compareOn rule) (compareOn message))

instance : Std.TransCmp order :=
  inferInstanceAs
    (Std.TransCmp (compareLex (compareOn span) (compareLex (compareOn rule) (compareOn message))))

/-- Whether two findings say the same about the same place. -/
def sameReport (f g : Finding) : Bool :=
  f.span == g.span && f.rule == g.rule && f.message == g.message

end Finding

end AssertionLint
