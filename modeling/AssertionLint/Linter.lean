import AssertionLint.Finding.Queue
import AssertionLint.Selection

/-!
# The linter

A linter applies a fixed list of rules to the assertion calls of a file and
returns what they find in the order of the source.
-/

namespace AssertionLint

structure Linter where
  rules : List Rule
  policy : Queue.Policy := {}
  deriving DecidableEq, Repr

namespace Linter

def ruleNames (l : Linter) : List String := l.rules.map Rule.name

/-- The linter for a selection of rules. -/
def ofSelection (s : Selection) : Except Selection.Rejection (Logged Linter) := do
  let rules ← s.enabled
  let linter : Linter := { rules }
  pure ⟨linter, [.configured linter.ruleNames]⟩

def withPolicy (l : Linter) (policy : Queue.Policy) : Linter := { l with policy }

/-- What the rules find about one call. -/
def checkCall (l : Linter) (ctx : Context) (call : Call) : Logged (List Finding) := do
  let found ← Logged.each (fun r : Rule => r.check ctx call) l.rules
  pure (found.filterMap id)

/-- What the rules find about all calls of a file. No check depends on another one, so
calls may be checked at the same time; what is found about them is collected in the
order of the calls, whichever check ends first. -/
def run (l : Linter) (ctx : Context) (calls : List Call) : Logged (List Finding) := do
  Logged.note (.started calls.length l.rules.length)
  let found ← Logged.each (l.checkCall ctx) calls
  let findings := (((Queue.new l.policy).extend found.flatten).flush).1
  Logged.note (.finished findings.length)
  pure findings

end Linter

end AssertionLint
