import AssertionLint.Ty.Predeclared

/-!
# Static types

Types are finite trees. A declared type and a type parameter carry the type that
stands behind them: what the declaration says, or the constraint. Looking
through any number of these two layers gives the underlying type, and a type is
floating-point when its underlying type is a predeclared floating-point type.
-/

namespace AssertionLint

inductive Ty where
  | basic (kind : Predeclared)
  /-- A declared type. -/
  | named (name : String) (declaration : Ty)
  /-- A type parameter. -/
  | param (name : String) (constraint : Ty)
  | pointer (elem : Ty)
  | slice (elem : Ty)
  | array (size : UInt64) (elem : Ty)
  | map (key value : Ty)
  | struct (fields : List (String × Ty))
  /-- An interface or constraint: the names of its methods and the terms of its
  type set. -/
  | interface (methods : List String) (terms : List Ty)
  | func (params results : List Ty)
  deriving Repr

namespace Ty

instance : Inhabited Ty := ⟨basic .invalid⟩

/-- What stands behind all outer declarations and type parameters. -/
def underlying : Ty → Ty
  | named _ t => t.underlying
  | param _ t => t.underlying
  | t => t

/-- The predeclared type that this type itself is. -/
def basic? : Ty → Option Predeclared
  | basic k => some k
  | _ => none

def isFloat (t : Ty) : Bool := t.underlying.basic?.any Predeclared.isFloat

/-! ## Equality -/

mutual

/-- Structural equality of types. -/
def same : Ty → Ty → Bool
  | basic k, basic k' => k == k'
  | named n t, named n' t' => n == n' && t.same t'
  | param n t, param n' t' => n == n' && t.same t'
  | pointer t, pointer t' => t.same t'
  | slice t, slice t' => t.same t'
  | array s t, array s' t' => s == s' && t.same t'
  | map k v, map k' v' => k.same k' && v.same v'
  | struct fs, struct fs' => sameFields fs fs'
  | interface ms ts, interface ms' ts' => ms == ms' && sameAll ts ts'
  | func ps rs, func ps' rs' => sameAll ps ps' && sameAll rs rs'
  | _, _ => false

def sameAll : List Ty → List Ty → Bool
  | [], [] => true
  | t :: ts, t' :: ts' => t.same t' && sameAll ts ts'
  | _, _ => false

def sameFields : List (String × Ty) → List (String × Ty) → Bool
  | [], [] => true
  | (n, t) :: fs, (n', t') :: fs' => n == n' && t.same t' && sameFields fs fs'
  | _, _ => false

end

mutual

theorem same_iff : (t u : Ty) → (t.same u = true ↔ t = u)
  | basic _, u => by cases u <;> simp [same]
  | named _ t, u => by cases u <;> simp [same, same_iff t]
  | param _ t, u => by cases u <;> simp [same, same_iff t]
  | pointer t, u => by cases u <;> simp [same, same_iff t]
  | slice t, u => by cases u <;> simp [same, same_iff t]
  | array _ t, u => by cases u <;> simp [same, same_iff t]
  | map k v, u => by cases u <;> simp [same, same_iff k, same_iff v]
  | struct fs, u => by cases u <;> simp [same, sameFields_iff fs]
  | interface _ ts, u => by cases u <;> simp [same, sameAll_iff ts]
  | func ps rs, u => by cases u <;> simp [same, sameAll_iff ps, sameAll_iff rs]

theorem sameAll_iff : (ts us : List Ty) → (sameAll ts us = true ↔ ts = us)
  | [], us => by cases us <;> simp [sameAll]
  | t :: ts, us => by cases us <;> simp [sameAll, same_iff t, sameAll_iff ts]

theorem sameFields_iff : (fs gs : List (String × Ty)) → (sameFields fs gs = true ↔ fs = gs)
  | [], gs => by cases gs <;> simp [sameFields]
  | (_, t) :: fs, gs => by
    cases gs <;> simp [sameFields, Prod.ext_iff, same_iff t, sameFields_iff fs]

end

instance : DecidableEq Ty := fun t u => decidable_of_iff _ (same_iff t u)

/-! ## Text -/

/-- One result stands alone, several stand in parentheses. -/
def resultText : List String → String
  | [] => ""
  | [r] => " " ++ r
  | rs => " (" ++ String.intercalate ", " rs ++ ")"

mutual

/-- The spelling of a type. Declared types and type parameters show their name
alone; the terms of an interface come before its methods. -/
def text : Ty → String
  | basic k => k.name
  | named n _ => n
  | param n _ => n
  | pointer t => "*" ++ t.text
  | slice t => "[]" ++ t.text
  | array s t => "[" ++ toString s.toNat ++ "]" ++ t.text
  | map k v => "map[" ++ k.text ++ "]" ++ v.text
  | struct fs => "struct\x7b" ++ String.intercalate "; " (fieldTexts fs) ++ "\x7d"
  | interface ms ts =>
    let union := if ts.isEmpty then [] else [String.intercalate " | " (texts ts)]
    "interface\x7b" ++ String.intercalate "; " (union ++ ms.map (· ++ "()")) ++ "\x7d"
  | func ps rs => "func(" ++ String.intercalate ", " (texts ps) ++ ")" ++ resultText (texts rs)

def texts : List Ty → List String
  | [] => []
  | t :: ts => t.text :: texts ts

def fieldTexts : List (String × Ty) → List String
  | [] => []
  | (n, t) :: fs => (n ++ " " ++ t.text) :: fieldTexts fs

end

@[simp] theorem underlying_named (n : String) (t : Ty) :
    (named n t).underlying = t.underlying := rfl

@[simp] theorem underlying_param (n : String) (t : Ty) :
    (param n t).underlying = t.underlying := rfl

end Ty

end AssertionLint
