import AssertionLint.Expr
import AssertionLint.Ty
import Std.Data.ExtTreeMap

/-!
# Type tables

What is known about the types of expressions. Rules ask through a `Typing`,
which answers with a type or with nothing. A `Ty.Table` is a finite typing that
remembers the last type recorded for each expression; two tables are equal
exactly when they answer alike.
-/

namespace AssertionLint

/-- The type of each expression, where it is known. -/
abbrev Typing := ExprId → Option Ty

namespace Ty

structure Table where
  entries : Std.ExtTreeMap ExprId Ty
  deriving DecidableEq

namespace Table

def empty : Table := ⟨∅⟩

instance : Inhabited Table := ⟨empty⟩

def get? (t : Table) (id : ExprId) : Option Ty := t.entries[id]?

def size (t : Table) : Nat := t.entries.size

def isEmpty (t : Table) : Bool := t.entries.isEmpty

/-- Records a type in place of any earlier one. -/
def insert (t : Table) (id : ExprId) (ty : Ty) : Table := ⟨t.entries.insert id ty⟩

/-- Records a type and returns the one it replaces. -/
def record (t : Table) (id : ExprId) (ty : Ty) : Option Ty × Table :=
  (t.get? id, t.insert id ty)

def typing (t : Table) : Typing := t.get?

theorem get?_insert (t : Table) (id id' : ExprId) (ty : Ty) :
    (t.insert id ty).get? id' = if id = id' then some ty else t.get? id' := by
  simp [insert, get?, Std.ExtTreeMap.getElem?_insert]

theorem ext {t u : Table} (h : ∀ id, t.get? id = u.get? id) : t = u := by
  cases t
  cases u
  exact congrArg _ (Std.ExtTreeMap.ext_getElem? h)

end Table

end Ty

end AssertionLint
