import AssertionLint.Linter
import AssertionLint.Proofs.StepRuns
import Mathlib.Data.Finset.Card

/-!
# Whole runs of a type table

A run is any sequence of recordings. For each expression only the last of them is
remembered: it decides what the table answers, whether the expression is counted, and
what the next recording gives back. Tables are equal if they answer alike, so neither
overwritten types nor the order between different expressions leave a trace.
-/

namespace AssertionLint.Ty.Table

/-- What can be done with a table. Both steps record a type, and the first one gives back
the type it replaces. -/
inductive Step where
  | record (id : ExprId) (ty : Ty)
  | insert (id : ExprId) (ty : Ty)
  deriving DecidableEq, Repr

/-- The expression that a step is about. -/
def Step.id : Step → ExprId
  | record id _ => id
  | insert id _ => id

def Step.ty : Step → Ty
  | record _ ty => ty
  | insert _ ty => ty

/-- What a step gives back, at most one answer, and the table after it. -/
def step (t : Table) : Step → List (Option Ty) × Table
  | .record id ty => ([(t.record id ty).1], (t.record id ty).2)
  | .insert id ty => ([], t.insert id ty)

/-- What the steps of a run give back, in order, and the table at its end. -/
def run (t : Table) (steps : List Step) : List (Option Ty) × Table := runSteps step t steps

/-- The steps that are about one expression. -/
def about (id : ExprId) (steps : List Step) : List Step := steps.filter fun s => s.id = id

/-- The type that was recorded last for an expression. -/
def lastType (steps : List Step) (id : ExprId) : Option Ty :=
  ((about id steps).getLast?).map Step.ty

theorem run_concat (t : Table) (steps : List Step) (s : Step) :
    (t.run (steps ++ [s])).2 = ((t.run steps).2.step s).2 := by
  rw [run, runSteps_concat]
  rfl

/-! ## One step -/

/-- Whatever the step, it records its type. -/
theorem step_eq_insert (t : Table) (s : Step) : (t.step s).2 = t.insert s.id s.ty := by
  cases s <;> rfl

theorem get?_step (t : Table) (s : Step) (id : ExprId) :
    (t.step s).2.get? id = if s.id = id then some s.ty else t.get? id := by
  rw [step_eq_insert, get?_insert]

theorem lastType_concat (steps : List Step) (s : Step) (id : ExprId) :
    lastType (steps ++ [s]) id = if s.id = id then some s.ty else lastType steps id := by
  rw [lastType, about, List.filter_append]
  split
  · simp [*]
  · simp [*, lastType, about]

theorem size_step (t : Table) (s : Step) :
    (t.step s).2.size = if (t.get? s.id).isSome then t.size else t.size + 1 := by
  rw [step_eq_insert, size, insert, Std.ExtTreeMap.size_insert,
    Std.ExtTreeMap.contains_eq_isSome_getElem?]
  rfl

/-! ## Runs -/

theorem get?_run (steps : List Step) (id : ExprId) :
    (empty.run steps).2.get? id = lastType steps id := by
  induction steps using List.reverseRecOn with
  | nil => exact Std.ExtTreeMap.getElem?_empty
  | append_singleton steps s ih => rw [run_concat, get?_step, lastType_concat, ih]

theorem isSome_lastType_iff (steps : List Step) (id : ExprId) :
    (lastType steps id).isSome = true ↔ id ∈ steps.map Step.id := by
  simp [lastType, about]

/-- A step counts if it is the first one about its expression. -/
theorem size_run (steps : List Step) :
    (empty.run steps).2.size = (steps.map Step.id).toFinset.card := by
  induction steps using List.reverseRecOn with
  | nil => rfl
  | append_singleton steps s ih =>
    have hids : ((steps ++ [s]).map Step.id).toFinset =
        Insert.insert s.id (steps.map Step.id).toFinset := by
      ext id
      simp
    rw [run_concat, size_step, get?_run, ih, hids, Finset.card_insert_eq_ite]
    simp only [isSome_lastType_iff, List.mem_toFinset]

/-- Only the steps about each single expression matter. -/
theorem run_eq_of_about {steps steps' : List Step}
    (h : ∀ id, about id steps = about id steps') :
    (empty.run steps).2 = (empty.run steps').2 := by
  apply Table.ext
  intro id
  rw [get?_run, get?_run, lastType, lastType, h]

/-- Neighbouring steps about different expressions can change places. -/
theorem about_swap {s s' : Step} (h : s.id ≠ s'.id) (before after : List Step) (id : ExprId) :
    about id (before ++ s :: s' :: after) = about id (before ++ s' :: s :: after) := by
  by_cases hs : s.id = id
  · have hs' : s'.id ≠ id := fun he => h (hs.trans he.symm)
    simp [about, hs, hs']
  · simp [about, hs, List.filter_cons]

/-- What a table remembers of the steps that led to it. -/
structure Remembers (t : Table) (steps : List Step) : Prop where
  get : ∀ id, t.get? id = lastType steps id
  typing : ∀ id, t.typing id = lastType steps id
  size : t.size = (steps.map Step.id).toFinset.card

/-- Every run from an empty table remembers the last type of each expression and nothing
else. A recording gives back what the table answered before it and changes the answer for
its own expression alone. Tables compare equal exactly if they answer alike, and they do
so if the steps about each expression are the same and come in the same order, however
steps about different expressions are mixed. -/
theorem run_remembers :
    (∀ steps, (empty.run steps).2.Remembers steps) ∧
    (∀ (before after : List Step) (id : ExprId) (ty : Ty),
      let t := (empty.run before).2
      let t' := (empty.run (before ++ [.record id ty])).2
      empty.run (before ++ .record id ty :: after) =
        ((empty.run before).1 ++ t.get? id :: (t'.run after).1, (t'.run after).2) ∧
      t'.get? id = some ty ∧ ∀ other, other ≠ id → t'.get? other = t.get? other) ∧
    (∀ steps steps', ((empty.run steps).2 == (empty.run steps').2) = true ↔
      ∀ id, (empty.run steps).2.get? id = (empty.run steps').2.get? id) ∧
    ∀ steps steps', (∀ id, about id steps = about id steps') →
      (empty.run steps).2 = (empty.run steps').2 ∧
      ∀ (l : Linter) (a : Arena) (calls : List Call),
        l.run ⟨a, (empty.run steps).2.typing⟩ calls =
          l.run ⟨a, (empty.run steps').2.typing⟩ calls := by
  refine ⟨?_, ?_, ?_, ?_⟩
  · intro steps
    exact ⟨get?_run steps, get?_run steps, size_run steps⟩
  · intro before after id ty t t'
    have ht' : t' = (t.step (.record id ty)).2 := run_concat _ before _
    refine ⟨?_, ?_, ?_⟩
    · rw [ht']
      exact runSteps_append step empty before _
    · rw [ht', get?_step]
      exact if_pos rfl
    · intro other hne
      rw [ht', get?_step]
      exact if_neg hne.symm
  · intro steps steps'
    rw [beq_iff_eq]
    exact ⟨fun h id => by rw [h], Table.ext⟩
  · intro steps steps' h
    have heq := run_eq_of_about h
    refine ⟨heq, ?_⟩
    intro l a calls
    rw [heq]

/-- A type of the number for no expression that is overwritten while another type is
recorded. -/
theorem run_remembers_overwritten :
    let first : Step := .insert .invalid (.basic .int)
    let second : Step := .record .invalid (.basic .float64)
    let other : Step := .record ⟨3⟩ (.basic .string)
    (empty.run [first, second]).2.get? ⟨3⟩ = (empty.run [first]).2.get? ⟨3⟩ ∧
      (⟨3⟩ : ExprId) ≠ .invalid ∧
      (∀ id, about id [first, second, other] = about id [first, other, second]) ∧
      (empty.run [first, second, other]).2 = (empty.run [first, other, second]).2 := by
  intro first second other
  have hne : (⟨3⟩ : ExprId) ≠ .invalid := by decide
  have hids : second.id ≠ other.id := hne.symm
  have habout : ∀ id, about id [first, second, other] = about id [first, other, second] :=
    about_swap hids [first] []
  obtain ⟨-, hrecord, -, horder⟩ := run_remembers
  exact ⟨(hrecord [first] [] .invalid (.basic .float64)).2.2 ⟨3⟩ hne, hne, habout,
    (horder _ _ habout).1⟩

end AssertionLint.Ty.Table
