import AssertionLint.Rule
import Std.Data.TreeSet

/-!
# Selection of rules

A selection starts from the rules that run by default, from all rules, or from
none, adds the rules it names as enabled and takes away those it names as
disabled. Selections that contradict themselves or name a rule that does not
exist are rejected; of several reasons the first in a fixed order is given.
-/

namespace AssertionLint

structure Selection where
  enableAll : Bool := false
  disableAll : Bool := false
  enable : List String := []
  disable : List String := []
  deriving DecidableEq, Repr

instance : Inhabited Selection := ⟨{}⟩

namespace Selection

/-- Just the named rules. -/
def only (names : List String) : Selection := { disableAll := true, enable := names }

/-- Why a selection is rejected. -/
inductive Rejection where
  | enableAllWithDisableAll
  | enableAllWithEnable
  | disableAllWithDisable
  | nothingEnabled
  | unknownRule (name : String)
  | enabledAndDisabled (name : String)
  deriving DecidableEq, Repr

def Rejection.message : Rejection → String
  | enableAllWithDisableAll => "enable-all and disable-all options must not be combined"
  | enableAllWithEnable => "enable-all and enable options must not be combined"
  | disableAllWithDisable => "disable-all and disable options must not be combined"
  | nothingEnabled =>
    "all checkers were disabled, but no one checker was enabled: at least one must be enabled"
  | unknownRule name => "unknown checker: " ++ name
  | enabledAndDisabled name => "checker enabled and disabled at the same time: " ++ name

/-- The reason to reject a selection whose flags are in order because of the
names it mentions. -/
def badName? (s : Selection) : Option Rejection :=
  match (s.enable ++ s.disable).find? fun n => (Rule.ofName? n).isNone with
  | some n => some (.unknownRule n)
  | none => (s.enable.find? fun n => s.disable.contains n).map .enabledAndDisabled

/-- The first reason to reject a selection. -/
def rejection? (s : Selection) : Option Rejection :=
  if s.enableAll && s.disableAll then some .enableAllWithDisableAll
  else if s.enableAll && !s.enable.isEmpty then some .enableAllWithEnable
  else if s.disableAll && !s.disable.isEmpty then some .disableAllWithDisable
  else if s.disableAll && s.enable.isEmpty then some .nothingEnabled
  else s.badName?

def validate (s : Selection) : Except Rejection Unit :=
  match s.rejection? with
  | some r => .error r
  | none => .ok ()

/-- The rules that run before names are added or taken away. -/
def base (s : Selection) : Std.TreeSet Rule :=
  if s.enableAll then .ofList Rule.all
  else if s.disableAll then ∅
  else .ofList (Rule.all.filter Rule.onByDefault)

/-- The rules that a list names. -/
def named (names : List String) : List Rule := names.filterMap Rule.ofName?

/-- The rules that run, in running order. -/
def enabled (s : Selection) : Except Rejection (List Rule) := do
  s.validate
  -- From here on every name is that of a rule.
  let added := s.base.insertMany (named s.enable)
  let left := (named s.disable).foldl (fun rules r => rules.erase r) added
  pure left.toList

end Selection

end AssertionLint
