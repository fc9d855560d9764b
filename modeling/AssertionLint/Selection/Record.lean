import AssertionLint.Selection

/-!
# Selections as records

What a library that reads and writes selections is told about them: the fields in
order, how the members of an object are named after them, and what becomes of fields
without a member and of members without a field.
-/

namespace AssertionLint.Selection

inductive Field where
  | enableAll
  | disableAll
  | enable
  | disable
  deriving DecidableEq, Repr

namespace Field

def all : List Field := [enableAll, disableAll, enable, disable]

/-- The name of the field in the program. -/
def identifier : Field → String
  | enableAll => "enable_all"
  | disableAll => "disable_all"
  | enable => "enable"
  | disable => "disable"

/-- The name of the member that holds the field. -/
def key : Field → String
  | enableAll => "enable-all"
  | disableAll => "disable-all"
  | enable => "enable"
  | disable => "disable"

def ofKey? (key : String) : Option Field := all.find? fun f => f.key == key

theorem ofKey?_key (f : Field) : ofKey? f.key = some f := by
  cases f <;> decide

theorem key_inj {f g : Field} : f.key = g.key ↔ f = g := by
  constructor
  · intro h
    exact Option.some.inj (by rw [← ofKey?_key f, h, ofKey?_key g])
  · rintro rfl
    rfl

end Field

/-- How the words of an identifier are joined in the name of a member. -/
inductive Casing where
  | snake
  | kebab
  deriving DecidableEq, Repr

structure Attributes where
  casing : Casing
  /-- Whether a field without a member has its value in the default record. -/
  fillsMissing : Bool
  /-- Whether a member that belongs to no field is an error. -/
  deniesUnknown : Bool
  deriving DecidableEq, Repr

/-- The attributes of selections. -/
def attributes : Attributes where
  casing := .kebab
  fillsMissing := true
  deniesUnknown := true

end AssertionLint.Selection
