/-!
# Runs of steps

A step gives back any number of answers and leads to another state. A run makes
several steps, one after the other; it gives back their answers in order and ends in
the state of the last one.
-/

namespace AssertionLint

variable {σ ι ο : Type}

/-- What the steps of a run give back, in order, and the state at its end. -/
def runSteps (step : σ → ι → List ο × σ) (s : σ) : List ι → List ο × σ
  | [] => ([], s)
  | i :: is =>
    let first := step s i
    let rest := runSteps step first.2 is
    (first.1 ++ rest.1, rest.2)

variable (step : σ → ι → List ο × σ)

/-- A run goes on where another one has ended. -/
theorem runSteps_append (s : σ) (is js : List ι) :
    runSteps step s (is ++ js) =
      ((runSteps step s is).1 ++ (runSteps step (runSteps step s is).2 js).1,
        (runSteps step (runSteps step s is).2 js).2) := by
  induction is generalizing s with
  | nil => rfl
  | cons i is ih => simp [runSteps, ih]

theorem runSteps_concat (s : σ) (is : List ι) (i : ι) :
    runSteps step s (is ++ [i]) =
      ((runSteps step s is).1 ++ (step (runSteps step s is).2 i).1,
        (step (runSteps step s is).2 i).2) := by
  simp [runSteps_append, runSteps]

variable {step}

/-- What every step preserves a run preserves. -/
theorem runSteps_invariant {P : σ → Prop} (h : ∀ s i, P s → P (step s i).2) {s : σ} (hs : P s)
    (is : List ι) : P (runSteps step s is).2 := by
  induction is generalizing s with
  | nil => exact hs
  | cons i is ih => exact ih (h s i hs)

end AssertionLint
