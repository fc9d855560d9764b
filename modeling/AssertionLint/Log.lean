import AssertionLint.Expr
import AssertionLint.Text.Quoted

/-!
# The event log

Everything the linter does is noted as an event. Computations that note events
return a value together with the events they noted, in order. Calls are checked
independently of each other, so the events of different calls may come in any
order; sorting the log by what its entries say gives a form that does not depend
on it.
-/

namespace AssertionLint

inductive Event where
  /-- The linter was set up with the rules of these names. -/
  | configured (rules : List String)
  /-- The check of a file begins. -/
  | started (calls rules : Nat)
  /-- A call compares floating-point values for equality. -/
  | flagged (call : String) (span : Span)
  /-- The type of an expression was asked for and is not known. -/
  | unresolved (expr : ExprId)
  /-- The check of a file has ended with this many findings. -/
  | finished (findings : Nat)
  deriving DecidableEq, Repr

namespace Event

/-- How detailed an event is. -/
inductive Level where
  | debug
  | trace
  deriving DecidableEq, Repr

/-- Which part of the linter notes an event. -/
inductive Origin where
  | linter
  | rule
  | typing
  deriving DecidableEq, Repr

def level : Event → Level
  | unresolved _ => .trace
  | _ => .debug

def origin : Event → Origin
  | flagged .. => .rule
  | unresolved _ => .typing
  | _ => .linter

/-- The name of the stretch of work that an event opens, if it opens one. -/
def opens? : Event → Option String
  | started .. => some "run"
  | _ => none

/-- What an event says, by field. -/
def fields : Event → List (String × String)
  | configured rules => [("message", "analyzer configured"), ("checkers", Text.quotedList rules)]
  | started calls rules => [("calls", toString calls), ("checkers", toString rules)]
  | flagged call span =>
    [("message", "float equality assertion"), ("call", call), ("span", span.text)]
  | unresolved expr => [("message", "unresolved type; not a float"), ("expr", expr.text)]
  | finished findings =>
    [("message", "analysis finished"), ("diagnostics", toString findings)]

/-- The text of a field, empty if the event has no such field. -/
def field (name : String) (e : Event) : String := (e.fields.lookup name).getD ""

/-- By message, then call, span and expression. -/
def order : Event → Event → Ordering :=
  compareLex (compareOn (field "message"))
    (compareLex (compareOn (field "call"))
      (compareLex (compareOn (field "span")) (compareOn (field "expr"))))

def sort (events : List Event) : List Event :=
  events.mergeSort fun a b => (order a b).isLE

end Event

/-- A value with the events noted on the way to it. -/
structure Logged (α : Type) where
  value : α
  log : List Event
  deriving DecidableEq, Repr

namespace Logged

variable {α β : Type}

instance : Monad Logged where
  pure a := ⟨a, []⟩
  bind x f := ⟨(f x.value).value, x.log ++ (f x.value).log⟩

/-- Notes one event. -/
def note (e : Event) : Logged Unit := ⟨(), [e]⟩

/-- Applies `f` to each element in turn. -/
def each (f : α → Logged β) : List α → Logged (List β)
  | [] => pure []
  | a :: as => do
    let b ← f a
    let bs ← each f as
    pure (b :: bs)

@[simp] theorem value_pure (a : α) : (pure a : Logged α).value = a := rfl

@[simp] theorem log_pure (a : α) : (pure a : Logged α).log = [] := rfl

@[simp] theorem value_bind (x : Logged α) (f : α → Logged β) :
    (x >>= f).value = (f x.value).value := rfl

@[simp] theorem log_bind (x : Logged α) (f : α → Logged β) :
    (x >>= f).log = x.log ++ (f x.value).log := rfl

@[simp] theorem value_note (e : Event) : (note e).value = () := rfl

@[simp] theorem log_note (e : Event) : (note e).log = [e] := rfl

theorem value_each (f : α → Logged β) (as : List α) :
    (each f as).value = as.map fun a => (f a).value := by
  induction as with
  | nil => rfl
  | cons a as ih => simp [each, ih]

theorem log_each (f : α → Logged β) (as : List α) :
    (each f as).log = as.flatMap fun a => (f a).log := by
  induction as with
  | nil => rfl
  | cons a as ih => simp [each, ih]

end Logged

end AssertionLint
