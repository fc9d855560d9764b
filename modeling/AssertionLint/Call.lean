import AssertionLint.Expr
import AssertionLint.Finding

/-!
# Assertion calls

A call to an assertion library: the function, the text it is selected from, and
the arguments without the leading test context. A function whose name ends in
`f` is the formatting variant of the function named without that letter.
-/

namespace AssertionLint

/-- The assertions that rules tell apart. -/
inductive Assertion where
  | equal
  | equalValues
  | exactly
  | isTrue
  | isFalse
  | other
  deriving DecidableEq, Repr

/-- The assertion with a given name; formatting variants have none of these names. -/
def Assertion.ofName (name : String) : Assertion :=
  if name = "Equal" then equal
  else if name = "EqualValues" then equalValues
  else if name = "Exactly" then exactly
  else if name = "True" then isTrue
  else if name = "False" then isFalse
  else other

/-- What is known about the name of an assertion function. Nothing ties the parts to
each other; `ofText` takes them from the text. -/
structure FunctionName where
  /-- The name as it is written. -/
  text : String
  /-- The name without the letter that marks a formatting variant. -/
  stem : String
  /-- Whether the call uses the formatting variant. -/
  isFormatting : Bool
  deriving DecidableEq, Repr

/-- A name that ends in `f` is that of a formatting variant. Only this one letter is
taken off. -/
def FunctionName.ofText (text : String) : FunctionName :=
  if text.toList.getLast? == some 'f' then
    { text, stem := String.ofList text.toList.dropLast, isFormatting := true }
  else { text, stem := text, isFormatting := false }

structure Call where
  /-- The whole call. -/
  span : Span
  function : FunctionName
  /-- What the function is selected from, such as a package or a value. -/
  receiver : String
  args : List ExprId
  deriving DecidableEq, Repr

namespace Call

/-- A call of the function with the given name. -/
def ofName (span : Span) (name receiver : String) (args : List ExprId) : Call :=
  { span, function := .ofText name, receiver, args }

def assertion (c : Call) : Assertion := Assertion.ofName c.function.stem

/-- The text `receiver.function`. -/
def text (c : Call) : String := c.receiver ++ "." ++ c.function.text

/-- What a rule has to say about the call, without fixes. -/
def finding (c : Call) (rule message : String) : Finding := ⟨rule, message, c.span, []⟩

end Call

end AssertionLint
