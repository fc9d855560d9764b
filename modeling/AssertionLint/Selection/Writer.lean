import AssertionLint.Json.StringText
import AssertionLint.Selection.Record

/-!
# The written form of a selection

A selection is written as a JSON object with a member for each of its four
fields, always in the same order and without blanks. This is the writer that runs;
`Selection.Codec` describes what it has in common with others.
-/

namespace AssertionLint.Selection

def boolText (b : Bool) : String := if b then "true" else "false"

def stringsText (ss : List String) : String :=
  "[" ++ String.intercalate "," (ss.map Json.quote) ++ "]"

def fieldText (s : Selection) : Field → String
  | .enableAll => boolText s.enableAll
  | .disableAll => boolText s.disableAll
  | .enable => stringsText s.enable
  | .disable => stringsText s.disable

/-- A selection as JSON text. -/
def text (s : Selection) : String :=
  let members := Field.all.map fun f => Json.quote f.key ++ ":" ++ s.fieldText f
  "\x7b" ++ String.intercalate "," members ++ "\x7d"

end AssertionLint.Selection
