import AssertionLint.Proofs.ComparedValues

/-!
# Type parameters

A type parameter stands for its constraint, so it is floating-point exactly if the
constraint is. Constraints of the analysed language are interfaces, perhaps behind
declarations or other type parameters, and for these nothing is reported. A
parameter over a floating-point type itself is looked through like a declared
type, and comparisons of its values are reported.
-/

namespace AssertionLint

namespace Ty

/-- A type parameter has this constraint, directly or below declarations. -/
inductive Constrains (constraint : Ty) : Ty → Prop
  | param (name : String) : Constrains constraint (param name constraint)
  | named (name : String) {t : Ty} : Constrains constraint t → Constrains constraint (named name t)

theorem Constrains.floating_iff {constraint t : Ty} (h : constraint.Constrains t) :
    t.Floating ↔ constraint.Floating := by
  rw [← isFloat_eq_true, ← isFloat_eq_true]
  induction h with
  | param name => rfl
  | named name _ ih => exact ih

theorem not_floating_of_underlying {t : Ty} {methods : List String} {terms : List Ty}
    (h : t.underlying = interface methods terms) : ¬t.Floating := by
  rw [← isFloat_eq_true, isFloat, h]
  exact Bool.false_ne_true

end Ty

theorem Context.floating_iff_of_constrains {ctx : Context} {id : ExprId} {constraint t : Ty}
    (ht : ctx.types id = some t) (h : constraint.Constrains t) :
    ctx.Floating id ↔ constraint.Floating := by
  rw [← h.floating_iff, Context.Floating]
  simp [ht]

namespace FloatCompare

theorem isSome_check_iff {ctx : Context} {call : Call} :
    (check ctx call).value.isSome = true ↔ Flagged ctx call := by
  rw [check_value]
  split <;> simp [*]

/-- Whether values of type parameters are floating-point and whether a comparison of
them is reported depends on the constraints alone, and interfaces never lead to a
report. -/
theorem parameters_follow_constraints (ctx : Context) :
    (∀ (id : ExprId) (t constraint : Ty), ctx.types id = some t → constraint.Constrains t →
      ((ctx.isFloat id).value = true ↔ constraint.Floating)) ∧
    (∀ (call : Call) (left right : ExprId) (t t' constraint constraint' : Ty),
      Compares ctx.arena call left right →
      ctx.types left = some t → constraint.Constrains t →
      ctx.types right = some t' → constraint'.Constrains t' →
      ((check ctx call).value.isSome = true ↔ constraint.Floating ∨ constraint'.Floating)) ∧
    ∀ (constraint : Ty) (methods : List String) (terms : List Ty),
      constraint.underlying = .interface methods terms → ¬constraint.Floating := by
  refine ⟨?_, ?_, fun _ _ _ => Ty.not_floating_of_underlying⟩
  · intro id t constraint ht h
    rw [ctx.isFloat_value, Context.floating_iff_of_constrains ht h]
  · intro call left right t t' constraint constraint' hcompares ht h ht' h'
    rw [isSome_check_iff, flagged_iff_of_compares hcompares,
      Context.floating_iff_of_constrains ht h, Context.floating_iff_of_constrains ht' h']

/-- A type declared over a parameter with an interface, compared with a parameter whose
constraint is another parameter. -/
theorem parameters_follow_constraints_interface :
    let constraint := Ty.interface [] [.basic .float32, .basic .float64]
    let list := Ty.named "List" (.param "T" constraint)
    let element := Ty.param "V" (.param "U" constraint)
    let ctx : Context := ⟨⟨#[.binary .notEq ⟨1⟩ ⟨2⟩], #[.unknown]⟩,
      fun id => some (if id = ⟨1⟩ then list else element)⟩
    let call : Call := .ofName ⟨3, 40⟩ "Falsef" "assert" [⟨0⟩]
    Compares ctx.arena call ⟨1⟩ ⟨2⟩ ∧
      ctx.types ⟨1⟩ = some list ∧ constraint.Constrains list ∧
      ctx.types ⟨2⟩ = some element ∧ (Ty.param "U" constraint).Constrains element ∧
      ((ctx.isFloat ⟨1⟩).value = true ↔ constraint.Floating) ∧
      (Ty.param "U" constraint).underlying = constraint ∧
      ((check ctx call).value.isSome = true ↔
        constraint.Floating ∨ (Ty.param "U" constraint).Floating) ∧
      ¬constraint.Floating ∧ ¬(Ty.param "U" constraint).Floating := by
  intro constraint list element ctx call
  have hcompares : Compares ctx.arena call ⟨1⟩ ⟨2⟩ := .falsity (by decide) rfl rfl
  have hlist : constraint.Constrains list := .named "List" (.param "T")
  have helement : (Ty.param "U" constraint).Constrains element := .param "V"
  obtain ⟨hfloat, hcheck, hinterface⟩ := parameters_follow_constraints ctx
  exact ⟨hcompares, rfl, hlist, rfl, helement, hfloat ⟨1⟩ list constraint rfl hlist, rfl,
    hcheck call ⟨1⟩ ⟨2⟩ list element constraint _ hcompares rfl hlist rfl helement,
    hinterface constraint _ _ rfl, hinterface _ _ _ rfl⟩

/-- A parameter whose constraint is not an interface can be floating-point, and
assertions about its values are reported. -/
theorem parameter_over_float64_reported :
    let t := Ty.param "T" (.basic .float64)
    let ctx : Context := ⟨⟨#[.binary .eq ⟨1⟩ ⟨2⟩], #[.unknown]⟩, fun _ => some t⟩
    let compared : Call := .ofName ⟨3, 40⟩ "Equal" "assert" [⟨1⟩, ⟨2⟩]
    let asserted : Call := .ofName ⟨3, 40⟩ "True" "assert" [⟨0⟩]
    (Ty.basic .float64).Constrains t ∧ (ctx.isFloat ⟨1⟩).value = true ∧
      (check ctx compared).value.isSome = true ∧ (check ctx asserted).value.isSome = true :=
  ⟨.param "T", rfl, by decide, by decide⟩

end FloatCompare

end AssertionLint
