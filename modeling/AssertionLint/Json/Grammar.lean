/-!
# The grammar of JSON text

Which texts are written forms of a value, without regard to how they are read.
Every relation holds between a text and what is left of it behind the part it
describes, so the parts of a text follow one another without being put together
again.

A string spells a character beyond the first plane as itself or as a pair of
surrogates; half of a pair spells nothing. There is no bound on how deep values are
nested or how large numbers are.
-/

namespace AssertionLint.Json

/-- The values of JSON. A number is kept as it is spelled, and the members of an
object stay in order with all repetitions. -/
inductive Value where
  | null
  | bool (value : Bool)
  | number (spelling : List Char)
  | string (value : String)
  | array (elements : List Value)
  | object (members : List (String × Value))

/-- Any number of blanks. -/
inductive Blanks : List Char → List Char → Prop
  | none {rest : List Char} : Blanks rest rest
  | more {c : Char} {cs rest : List Char} :
      c = ' ' ∨ c = '\t' ∨ c = '\n' ∨ c = '\r' → Blanks cs rest → Blanks (c :: cs) rest

/-! ## Strings -/

/-- A hexadecimal digit with a given value, in either case. -/
def IsHexDigit (n : Nat) (c : Char) : Prop :=
  n < 16 ∧ (c = Nat.digitChar n ∨ c = (Nat.digitChar n).toUpper)

instance (n : Nat) (c : Char) : Decidable (IsHexDigit n c) := inferInstanceAs (Decidable (_ ∧ _))

/-- Four hexadecimal digits for a number. -/
inductive Hex4 : Nat → List Char → List Char → Prop
  | digits {p q r s : Nat} {a b c d : Char} {rest : List Char} :
      IsHexDigit p a → IsHexDigit q b → IsHexDigit r c → IsHexDigit s d →
      Hex4 (((p * 16 + q) * 16 + r) * 16 + s) (a :: b :: c :: d :: rest) rest

/-- The letters that stand for a character behind a backslash. -/
def shortForms : List (Char × Char) :=
  [('"', '"'), ('\\', '\\'), ('/', '/'), ('b', '\x08'), ('f', '\x0c'), ('n', '\n'),
    ('r', '\r'), ('t', '\t')]

/-- The two numbers that stand for a character beyond the first plane. -/
def surrogates (c : Char) : Nat × Nat :=
  (0xD800 + (c.toNat - 0x10000) / 0x400, 0xDC00 + (c.toNat - 0x10000) % 0x400)

/-- One character inside a string, in any of its spellings. -/
inductive CharText : Char → List Char → List Char → Prop
  | plain {c : Char} {rest : List Char} :
      0x20 ≤ c.toNat → c ≠ '"' → c ≠ '\\' → CharText c (c :: rest) rest
  | short {letter c : Char} {rest : List Char} :
      (letter, c) ∈ shortForms → CharText c ('\\' :: letter :: rest) rest
  | number {c : Char} {cs rest : List Char} :
      Hex4 c.toNat cs rest → CharText c ('\\' :: 'u' :: cs) rest
  | pair {c : Char} {cs cs' rest : List Char} :
      0x10000 ≤ c.toNat → Hex4 (surrogates c).1 cs ('\\' :: 'u' :: cs') →
      Hex4 (surrogates c).2 cs' rest → CharText c ('\\' :: 'u' :: cs) rest

/-- The characters of a string behind its opening quote. -/
inductive StringText : List Char → List Char → List Char → Prop
  | close {rest : List Char} : StringText [] ('"' :: rest) rest
  | char {c : Char} {s cs more rest : List Char} :
      CharText c cs more → StringText s more rest → StringText (c :: s) cs rest

/-- Most characters spell themselves. -/
theorem StringText.of_plain {s rest : List Char}
    (h : ∀ c ∈ s, 0x20 ≤ c.toNat ∧ c ≠ '"' ∧ c ≠ '\\') :
    StringText s (s ++ '"' :: rest) rest := by
  induction s with
  | nil => exact .close
  | cons c s ih =>
    obtain ⟨⟨hcontrol, hquote, hbackslash⟩, hs⟩ := List.forall_mem_cons.mp h
    exact .char (.plain hcontrol hquote hbackslash) (ih hs)

/-! ## Numbers -/

def Digits (ds : List Char) : Prop := ds ≠ [] ∧ ∀ d ∈ ds, d.isDigit = true

/-- The digits before the point: only a zero alone begins with a zero. -/
def WholeText (cs : List Char) : Prop := Digits cs ∧ (cs.head? = some '0' → cs = ['0'])

def FractionText (cs : List Char) : Prop := cs = [] ∨ ∃ ds, Digits ds ∧ cs = '.' :: ds

def ExponentText (cs : List Char) : Prop :=
  cs = [] ∨ ∃ mark sign ds, (mark = 'e' ∨ mark = 'E') ∧
    (sign = [] ∨ sign = ['+'] ∨ sign = ['-']) ∧ Digits ds ∧ cs = mark :: (sign ++ ds)

inductive NumberText : List Char → Prop
  | parts {sign whole fraction exponent : List Char} :
      sign = [] ∨ sign = ['-'] → WholeText whole → FractionText fraction →
      ExponentText exponent → NumberText (sign ++ whole ++ fraction ++ exponent)

/-! ## Values -/

/-- The name of a member up to its value. -/
inductive KeyText : String → List Char → List Char → Prop
  | name {s cs afterBlanks afterName afterColon rest : List Char} :
      Blanks cs ('"' :: afterBlanks) → StringText s afterBlanks afterName →
      Blanks afterName (':' :: afterColon) → Blanks afterColon rest →
      KeyText (String.ofList s) cs rest

mutual

/-- A value, from its first character to its last. -/
inductive ValueText : Value → List Char → List Char → Prop
  | null {rest : List Char} : ValueText .null ("null".toList ++ rest) rest
  | bool {b : Bool} {rest : List Char} : ValueText (.bool b) ((toString b).toList ++ rest) rest
  | number {cs rest : List Char} : NumberText cs → ValueText (.number cs) (cs ++ rest) rest
  | string {s cs rest : List Char} :
      StringText s cs rest → ValueText (.string (String.ofList s)) ('"' :: cs) rest
  | emptyArray {cs rest : List Char} :
      Blanks cs (']' :: rest) → ValueText (.array []) ('[' :: cs) rest
  | array {vs : List Value} {cs rest : List Char} :
      ElementsText vs cs rest → ValueText (.array vs) ('[' :: cs) rest
  | emptyObject {cs rest : List Char} :
      Blanks cs ('\x7d' :: rest) → ValueText (.object []) ('\x7b' :: cs) rest
  | object {ms : List (String × Value)} {cs rest : List Char} :
      MembersText ms cs rest → ValueText (.object ms) ('\x7b' :: cs) rest

/-- The elements of an array up to its closing bracket, at least one. -/
inductive ElementsText : List Value → List Char → List Char → Prop
  | last {v : Value} {cs start behind rest : List Char} :
      Blanks cs start → ValueText v start behind → Blanks behind (']' :: rest) →
      ElementsText [v] cs rest
  | more {v : Value} {vs : List Value} {cs start behind others rest : List Char} :
      Blanks cs start → ValueText v start behind → Blanks behind (',' :: others) →
      ElementsText vs others rest → ElementsText (v :: vs) cs rest

/-- The members of an object up to its closing brace, at least one. -/
inductive MembersText : List (String × Value) → List Char → List Char → Prop
  | last {key : String} {v : Value} {cs start behind rest : List Char} :
      KeyText key cs start → ValueText v start behind → Blanks behind ('\x7d' :: rest) →
      MembersText [(key, v)] cs rest
  | more {key : String} {v : Value} {ms : List (String × Value)}
      {cs start behind others rest : List Char} :
      KeyText key cs start → ValueText v start behind → Blanks behind (',' :: others) →
      MembersText ms others rest → MembersText ((key, v) :: ms) cs rest

end

/-- A whole text: one value with blanks around it. -/
def Document (v : Value) (text : String) : Prop :=
  ∃ start behind, Blanks text.toList start ∧ ValueText v start behind ∧ Blanks behind []

end AssertionLint.Json
