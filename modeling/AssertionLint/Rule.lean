import AssertionLint.Rule.FloatCompare

/-!
# Rules

The rules there are, in the order in which they run, with the names under which
they are selected and reported.
-/

namespace AssertionLint

inductive Rule where
  | floatCompare
  deriving DecidableEq, Repr

namespace Rule

def all : List Rule := [floatCompare]

def name : Rule → String
  | floatCompare => FloatCompare.name

def ofName? (name : String) : Option Rule := all.find? fun r => r.name == name

/-- Whether the rule runs without being asked for. -/
def onByDefault : Rule → Bool
  | floatCompare => true

/-- Applies the rule to one call. -/
def check : Rule → Context → Call → Logged (Option Finding)
  | floatCompare => FloatCompare.check

/-- Rules compare by the order in which they are declared. -/
instance : Ord Rule := ⟨compareOn Rule.ctorIdx⟩

instance : Std.TransOrd Rule := inferInstanceAs (Std.TransCmp (compareOn Rule.ctorIdx))

instance : Std.LawfulEqOrd Rule where
  eq_of_compare {r r'} _ := by
    cases r
    cases r'
    rfl

theorem mem_all (r : Rule) : r ∈ all := by
  cases r
  decide

end Rule

end AssertionLint
