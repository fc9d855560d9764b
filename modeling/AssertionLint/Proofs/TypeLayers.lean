import AssertionLint.Proofs.ComparedValues
import AssertionLint.Proofs.Footprint
import AssertionLint.Proofs.LinterResult
import Mathlib.Logic.Function.Basic

/-!
# Layers around types

Declared types and type parameters are layers around the type that stands behind
them. A type has finitely many of them, and its underlying type is what remains
without them. The rule asks about types through the underlying type alone, so
layers can be taken off or put on anywhere without any effect on a run. All other
types with parts are no layers: a part of them is never looked at.
-/

namespace AssertionLint

namespace Ty

/-- What the underlying type stands behind: the name of a declared type or of a type
parameter. -/
inductive Layer where
  | named (name : String)
  | param (name : String)
  deriving DecidableEq, Repr

def Layer.around : Layer → Ty → Ty
  | named name, t => .named name t
  | param name, t => .param name t

/-- A type behind layers, the outermost one first. -/
def behind (t : Ty) (layers : List Layer) : Ty := layers.foldr Layer.around t

@[simp] theorem behind_nil (t : Ty) : t.behind [] = t := rfl

@[simp] theorem behind_cons (t : Ty) (layer : Layer) (layers : List Layer) :
    t.behind (layer :: layers) = layer.around (t.behind layers) := rfl

@[simp] theorem underlying_around (layer : Layer) (t : Ty) :
    (layer.around t).underlying = t.underlying := by
  cases layer <;> rfl

theorem underlying_behind (t : Ty) (layers : List Layer) :
    (t.behind layers).underlying = t.underlying := by
  induction layers with
  | nil => rfl
  | cons layer layers ih => rw [behind_cons, underlying_around, ih]

/-- Each layer takes one round of looking through, and after finitely many there is none
left. -/
theorem exists_behind : (t : Ty) → ∃ layers, t = t.underlying.behind layers
  | named name t => by
    obtain ⟨layers, h⟩ := exists_behind t
    exact ⟨.named name :: layers, congrArg (Ty.named name) h⟩
  | param name t => by
    obtain ⟨layers, h⟩ := exists_behind t
    exact ⟨.param name :: layers, congrArg (Ty.param name) h⟩
  | basic _ | pointer _ | slice _ | array .. | map .. | struct _ | interface .. | func .. =>
    ⟨[], rfl⟩

theorem underlying_ne_around : (t : Ty) → ∀ layer u, t.underlying ≠ Layer.around layer u
  | named _ t | param _ t => underlying_ne_around t
  | basic _ | pointer _ | slice _ | array .. | map .. | struct _ | interface .. | func .. => by
    intro layer u h
    cases layer <;> cases h

/-- A type that is no layer is its own underlying type. -/
theorem underlying_of_ne_around {t : Ty} (h : ∀ layer u, t ≠ Layer.around layer u) :
    t.underlying = t := by
  obtain ⟨_ | ⟨layer, layers⟩, ht⟩ := exists_behind t
  · exact ht.symm
  · exact absurd ht (h layer _)

theorem underlying_underlying (t : Ty) : t.underlying.underlying = t.underlying :=
  underlying_of_ne_around (underlying_ne_around t)

theorem isFloat_of_underlying {t u : Ty} (h : t.underlying = u.underlying) :
    t.isFloat = u.isFloat := by
  rw [isFloat, isFloat, h]

/-- `t` is a part of the type `u`, and `u` is no layer around it. -/
inductive PartOf (t : Ty) : Ty → Prop
  | pointer : PartOf t (.pointer t)
  | slice : PartOf t (.slice t)
  | array (size : UInt64) : PartOf t (.array size t)
  | key (value : Ty) : PartOf t (.map t value)
  | value (key : Ty) : PartOf t (.map key t)
  | field {name : String} {fields : List (String × Ty)} (mem : (name, t) ∈ fields) :
      PartOf t (.struct fields)
  | term (methods : List String) {terms : List Ty} (mem : t ∈ terms) :
      PartOf t (.interface methods terms)
  | argument {params : List Ty} (results : List Ty) (mem : t ∈ params) :
      PartOf t (.func params results)
  | result (params : List Ty) {results : List Ty} (mem : t ∈ results) :
      PartOf t (.func params results)

theorem PartOf.isFloat_behind {t u : Ty} (h : t.PartOf u) (layers : List Layer) :
    (u.behind layers).isFloat = false := by
  rw [isFloat_of_underlying (underlying_behind u layers)]
  cases h <;> rfl

end Ty

/-! ## Verdicts -/

namespace Typing

/-- The typings answer alike, and with types that have one underlying type. -/
def SameUnderlying (o o' : Typing) : Prop :=
  ∀ id, (o id).map Ty.underlying = (o' id).map Ty.underlying

/-- A typing with other types in place of those it answers with. -/
def replace (o : Typing) (f : ExprId → Ty → Ty) : Typing := fun id => (o id).map (f id)

theorem sameUnderlying_replace (o : Typing) {f : ExprId → Ty → Ty}
    (h : ∀ id t, (f id t).underlying = t.underlying) : (o.replace f).SameUnderlying o := by
  intro id
  rw [replace, Option.map_map]
  exact congrArg (Option.map · (o id)) (funext (h id))

end Typing

section SameUnderlying

variable {a : Arena} {o o' : Typing} (h : o.SameUnderlying o')
include h

theorem Context.isFloat_of_sameUnderlying (id : ExprId) :
    Context.isFloat ⟨a, o⟩ id = Context.isFloat ⟨a, o'⟩ id := by
  have hid := h id
  cases ht : o id with
  | none =>
    rw [ht, Option.map_none, eq_comm, Option.map_eq_none_iff] at hid
    simp only [Context.isFloat, ht, hid]
  | some t =>
    rw [ht, Option.map_some, eq_comm, Option.map_eq_some_iff] at hid
    obtain ⟨t', ht', hsame⟩ := hid
    simp only [Context.isFloat, ht, ht', Ty.isFloat_of_underlying hsame]

theorem Context.eitherFloat_of_sameUnderlying (left right : ExprId) :
    Context.eitherFloat ⟨a, o⟩ left right = Context.eitherFloat ⟨a, o'⟩ left right := by
  rw [eitherFloat, eitherFloat, isFloat_of_sameUnderlying h, isFloat_of_sameUnderlying h]

namespace FloatCompare

theorem flags_of_sameUnderlying (call : Call) : flags ⟨a, o⟩ call = flags ⟨a, o'⟩ call := by
  by_cases hc : ∃ left right, Compares a call left right
  · obtain ⟨left, right, hc⟩ := hc
    calc flags ⟨a, o⟩ call = Context.eitherFloat ⟨a, o⟩ left right := flags_of_compares hc
      _ = Context.eitherFloat ⟨a, o'⟩ left right := Context.eitherFloat_of_sameUnderlying h _ _
      _ = flags ⟨a, o'⟩ call := (flags_of_compares hc).symm
  · have hnone : ∀ left right, ¬Compares a call left right :=
      fun left right hlr => hc ⟨left, right, hlr⟩
    exact (flags_of_not_compares hnone).trans (flags_of_not_compares hnone).symm

theorem check_of_sameUnderlying (call : Call) : check ⟨a, o⟩ call = check ⟨a, o'⟩ call := by
  rw [check, check, flags_of_sameUnderlying h]

end FloatCompare

theorem Linter.run_of_sameUnderlying (l : Linter) (calls : List Call) :
    l.run ⟨a, o⟩ calls = l.run ⟨a, o'⟩ calls :=
  l.run_of_check_eq fun call _ => FloatCompare.check_of_sameUnderlying h call

end SameUnderlying

namespace Linter

/-- Every type is its underlying type behind finitely many layers. The underlying type
is no layer itself and stays the same under any layers. So a run gives the same findings
and the same log if every known type is replaced by its underlying type, or is put behind
further layers, which may be others for every expression. An expression whose type
becomes a part of another type is not floating-point, whatever the part is. -/
theorem run_through_layers :
    (∀ t : Ty, (∃ layers, t = t.underlying.behind layers) ∧
      (∀ name u, t.underlying ≠ .named name u ∧ t.underlying ≠ .param name u) ∧
      t.underlying.underlying = t.underlying ∧
      ∀ layers, (t.behind layers).underlying = t.underlying) ∧
    (∀ s : Selection, s.validate = .ok () → ∃ l, ofSelection s = .ok l ∧
      ∀ (c : Queue.Policy) (a : Arena) (o : Typing) (calls : List Call),
        (l.value.withPolicy c).run ⟨a, o.replace fun _ t => t.underlying⟩ calls =
          (l.value.withPolicy c).run ⟨a, o⟩ calls ∧
        ∀ layers : ExprId → List Ty.Layer,
          (l.value.withPolicy c).run ⟨a, o.replace fun id t => t.behind (layers id)⟩ calls =
            (l.value.withPolicy c).run ⟨a, o⟩ calls) ∧
    ∀ (a : Arena) (o : Typing) (id : ExprId) (t u : Ty) (layers : List Ty.Layer), t.PartOf u →
      (Context.isFloat ⟨a, Function.update o id (some (u.behind layers))⟩ id).value = false := by
  refine ⟨?_, ?_, ?_⟩
  · intro t
    refine ⟨t.exists_behind, ?_, t.underlying_underlying, t.underlying_behind⟩
    intro name u
    exact ⟨t.underlying_ne_around (.named name) u, t.underlying_ne_around (.param name) u⟩
  · intro s hs
    obtain ⟨l, hl, -, -⟩ := ofSelection_of_validate hs
    refine ⟨l, hl, ?_⟩
    intro c a o calls
    constructor
    · apply run_of_sameUnderlying
      exact o.sameUnderlying_replace fun _ t => t.underlying_underlying
    · intro layers
      apply run_of_sameUnderlying
      exact o.sameUnderlying_replace fun id t => t.underlying_behind (layers id)
  · intro a o id t u layers hpart
    simp [Context.isFloat, hpart.isFloat_behind layers]

/-- A declared type over a type parameter over a floating-point type, and a map with
values of that type. -/
theorem run_through_layers_mixed :
    let celsius := Ty.named "Celsius" (.param "T" (.basic .float64))
    let readings := Ty.map (.basic .string) celsius
    let o : Typing := fun id => if id = ⟨0⟩ then some celsius else none
    let call : Call := ⟨⟨3, 40⟩, ⟨"Equalf", "Equal", false⟩, "assert", [⟨0⟩, ⟨1⟩]⟩
    (default : Selection).validate = .ok () ∧ celsius.PartOf readings ∧
      (∃ l, ofSelection default = .ok l ∧
        (l.value.withPolicy {}).run ⟨.empty, o.replace fun _ t => t.underlying⟩ [call] =
          (l.value.withPolicy {}).run ⟨.empty, o⟩ [call]) ∧
      (Context.isFloat ⟨.empty, Function.update o ⟨0⟩ (some readings)⟩ ⟨0⟩).value = false := by
  intro celsius readings o call
  have hvalid : (default : Selection).validate = .ok () := by decide
  have hpart : celsius.PartOf readings := .value _
  obtain ⟨-, hrun, hover⟩ := run_through_layers
  obtain ⟨l, hl, hsame⟩ := hrun default hvalid
  exact ⟨hvalid, hpart, ⟨l, hl, (hsame {} .empty o [call]).1⟩,
    hover .empty o ⟨0⟩ celsius readings [] hpart⟩

end Linter

end AssertionLint
