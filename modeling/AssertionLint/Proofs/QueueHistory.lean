import AssertionLint.Proofs.SourceOrder
import AssertionLint.Proofs.StepRuns
import Mathlib.Data.List.DropRight

/-!
# Whole runs of a queue

A run is any sequence of pushes, extensions and flushes. What a flush hands out
is a function of the policy and of the findings that arrived since the flush
before it, and afterwards the queue is as good as new, so the flushes of a run
do not influence each other.
-/

namespace AssertionLint.Queue

open Finding

/-- What can be done with a queue. -/
inductive Step where
  | push (f : Finding)
  | extend (fs : List Finding)
  | flush
  deriving DecidableEq, Repr

/-- The findings that a step adds. -/
def Step.arrivals : Step → List Finding
  | push f => [f]
  | extend fs => fs
  | flush => []

def Step.isFlush : Step → Bool
  | flush => true
  | _ => false

/-- What a step hands out, at most one list, and the queue after it. -/
def step (q : Queue) : Step → List (List Finding) × Queue
  | .push f => ([], q.push f)
  | .extend fs => ([], q.extend fs)
  | .flush => ([q.flush.1], q.flush.2)

/-- What the flushes of a run hand out, in order, and the queue at its end. -/
def run (q : Queue) (steps : List Step) : List (List Finding) × Queue := runSteps step q steps

/-- The findings that arrived after the last flush, in order of arrival. -/
def waiting (steps : List Step) : List Finding :=
  (steps.rtakeWhile fun s => !s.isFlush).flatMap Step.arrivals

theorem run_append (q : Queue) (steps later : List Step) :
    q.run (steps ++ later) =
      ((q.run steps).1 ++ ((q.run steps).2.run later).1, ((q.run steps).2.run later).2) :=
  runSteps_append step q steps later

theorem waiting_concat (steps : List Step) (s : Step) :
    waiting (steps ++ [s]) = if s.isFlush then [] else waiting steps ++ s.arrivals := by
  unfold waiting
  cases h : s.isFlush <;> simp [h]

theorem step_state (c : Policy) (p : List Finding) (s : Step) :
    (step ⟨c, p.toArray⟩ s).2 =
      ⟨c, (if s.isFlush then [] else p ++ s.arrivals).toArray⟩ := by
  cases s <;> simp [step, push, extend, flush, new, Step.isFlush, Step.arrivals]

/-- The state of a queue after any run: its policy is the one it was made with,
and it holds what arrived after the last flush. -/
theorem run_state (c : Policy) (steps : List Step) :
    ((new c).run steps).2 = ⟨c, (waiting steps).toArray⟩ := by
  induction steps using List.reverseRecOn with
  | nil => rfl
  | append_singleton steps s ih =>
    rw [run_append, ih, waiting_concat]
    exact step_state c (waiting steps) s

/-! ## What one flush hands out -/

/-- The same policy without a limit. -/
def Policy.unlimited (c : Policy) : Policy := { c with limit := 0 }

theorem arrange_unlimited (c : Policy) (p : List Finding) :
    arrange c.unlimited p =
      if c.dropRepeats then (sort p).eraseRepsBy sameReport else sort p := rfl

theorem arrange_eq_cut (c : Policy) (p : List Finding) :
    arrange c p = cut c.limit (arrange c.unlimited p) := rfl

theorem arrange_isPrefix (c : Policy) (p : List Finding) :
    (arrange c p).IsPrefix (arrange c.unlimited p) := by
  rw [arrange_eq_cut, cut]
  split
  · exact List.prefix_rfl
  · exact List.take_prefix _ _

theorem unlimited_increasing (c : Policy) (p : List Finding) :
    Increasing (arrange c.unlimited p) := by
  rw [arrange_unlimited]
  split
  · exact (sort_increasing p).sublist (eraseRepsBy_sublist (sort p))
  · exact sort_increasing p

theorem withKey_unlimited (c : Policy) (p : List Finding) (k : Key) :
    withKey k (arrange c.unlimited p) =
      if c.dropRepeats then (withKey k p).take 1 else withKey k p := by
  rw [arrange_unlimited]
  split
  · rw [withKey_eraseRepsBy k (sort_increasing p), withKey_sort]
  · exact withKey_sort k p

/-- What a queue with policy `c` has to hand out for the findings `p`. -/
structure Delivery (c : Policy) (p out : List Finding) : Prop where
  increasing : Increasing out
  /-- Findings of one key come in order of arrival, and none is passed over. -/
  arrival : ∀ k, (withKey k out).IsPrefix (withKey k p)
  all : c.dropRepeats = false → c.limit = 0 → out.Perm p
  /-- Before the limit each key is represented by its earliest arrival alone. -/
  first : c.dropRepeats = true → ∀ k,
    withKey k (arrange c.unlimited p) = (withKey k p).take 1
  limited : 0 < c.limit →
    out = (arrange c.unlimited p).take c.limit ∧
      out.length = min c.limit (arrange c.unlimited p).length ∧
      ∀ f ∈ out, ∀ g ∈ (arrange c.unlimited p).drop c.limit, f.key ≤ g.key
  unlimited : c.limit = 0 → out = arrange c.unlimited p

theorem withKey_arrange_isPrefix (c : Policy) (p : List Finding) (k : Key) :
    (withKey k (arrange c p)).IsPrefix (withKey k p) := by
  have hcut : (withKey k (arrange c p)).IsPrefix (withKey k (arrange c.unlimited p)) :=
    (arrange_isPrefix c p).filter _
  refine hcut.trans ?_
  rw [withKey_unlimited]
  split
  · exact List.take_prefix _ _
  · exact List.prefix_rfl

theorem arrange_eq_take (c : Policy) (p : List Finding) (h : 0 < c.limit) :
    arrange c p = (arrange c.unlimited p).take c.limit := by
  rw [arrange_eq_cut, cut, if_neg h.ne']

theorem arrange_delivery (c : Policy) (p : List Finding) : Delivery c p (arrange c p) where
  increasing := (unlimited_increasing c p).sublist (arrange_isPrefix c p).sublist
  arrival := withKey_arrange_isPrefix c p
  all := by
    intro hrep hlimit
    rw [arrange_eq_cut, cut, if_pos hlimit, arrange_unlimited, hrep]
    exact (sort_sortedFrom p).perm
  first := by
    intro hrep k
    rw [withKey_unlimited, if_pos hrep]
  limited := by
    intro hlimit
    rw [arrange_eq_take c p hlimit]
    refine ⟨rfl, List.length_take, ?_⟩
    have hall := unlimited_increasing c p
    rw [← List.take_append_drop c.limit (arrange c.unlimited p)] at hall
    exact (List.pairwise_append.mp hall).2.2
  unlimited := by
    intro hlimit
    rw [arrange_eq_cut, cut, if_pos hlimit]

/-- If a key says all about a finding, the order of arrival plays no part. -/
theorem arrange_eq_of_perm (c : Policy) {p q : List Finding} (hp : p.Perm q)
    (hkey : ∀ f ∈ p, ∀ g ∈ p, f.key = g.key → f = g) : arrange c p = arrange c q := by
  rw [arrange, arrange, sort_eq_of_perm hp hkey]

theorem length_arrange_le (c : Policy) (p : List Finding) : (arrange c p).length ≤ p.length := by
  have hsort : (sort p).length = p.length := List.length_mergeSort p
  refine (arrange_isPrefix c p).length_le.trans ?_
  rw [arrange_unlimited, ← hsort]
  split
  · exact (eraseRepsBy_sublist (sort p)).length_le
  · exact le_rfl

theorem length_arrange_of_keep {c : Policy} (h : c.dropRepeats = false) (p : List Finding) :
    (arrange c p).length = if c.limit = 0 then p.length else min c.limit p.length := by
  have hsort : (sort p).length = p.length := List.length_mergeSort p
  rw [arrange_eq_cut, arrange_unlimited, h, cut, if_neg Bool.false_ne_true]
  split
  · exact hsort
  · rw [List.length_take, hsort]

/-- Every flush of every run: before it the queue has the policy it was made
with and holds what arrived since the last flush, what it hands out is a
function of these two, and the run goes on as from a new queue. -/
theorem run_flush (c : Policy) (before after : List Step) :
    let q := ((new c).run before).2
    q.policy = c ∧ q.size = (waiting before).length ∧
      q.flush = (arrange c (waiting before), new c) ∧
      Delivery c (waiting before) (arrange c (waiting before)) ∧
      (new c).run (before ++ .flush :: after) =
        (((new c).run before).1 ++ arrange c (waiting before) :: ((new c).run after).1,
          ((new c).run after).2) := by
  have hflush : (⟨c, (waiting before).toArray⟩ : Queue).flush =
      (arrange c (waiting before), new c) := by
    simp [flush]
  rw [run_append, run_state]
  refine ⟨rfl, List.size_toArray, hflush, arrange_delivery c _, ?_⟩
  simp [run, runSteps, step, hflush]

end AssertionLint.Queue
