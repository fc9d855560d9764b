import AssertionLint.Text.Hex
import AssertionLint.Text.Unprintable

/-!
# Quoted text

Text inside double quotes in which every character can be seen: quotes and
backslashes are escaped, the usual control characters have short forms, and all
other characters that leave no mark of their own are written by number.
-/

namespace AssertionLint.Text

/-- One character between double quotes. -/
def quotedChar (c : Char) : String :=
  match c with
  | '"' => "\\\""
  | '\\' => "\\\\"
  | '\t' => "\\t"
  | '\n' => "\\n"
  | '\r' => "\\r"
  | '\x00' => "\\0"
  | c => if isUnprintable c then "\\u\x7b" ++ lowerHex c.toNat ++ "\x7d" else c.toString

def quoted (s : String) : String :=
  "\"" ++ String.join (s.toList.map quotedChar) ++ "\""

/-- Quoted texts in brackets. -/
def quotedList (ss : List String) : String :=
  "[" ++ String.intercalate ", " (ss.map quoted) ++ "]"

end AssertionLint.Text
