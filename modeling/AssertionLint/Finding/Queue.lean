import AssertionLint.Finding

/-!
# Queues of findings

Calls may be checked in any order. A queue collects what is found and hands it
out in the order of the source: sorted with equal findings in order of arrival,
without repetitions if so asked, and cut to a limit if there is one.
-/

namespace AssertionLint

namespace Queue

/-- What a queue leaves out. -/
structure Policy where
  /-- The most findings that are handed out; zero stands for no limit. -/
  limit : Nat := 0
  /-- Whether only the first of several findings that say the same is kept. -/
  dropRepeats : Bool := false
  deriving DecidableEq, Repr

instance : Inhabited Policy := ⟨{}⟩

/-- Findings in source order, equal ones in order of arrival. -/
def sort (findings : List Finding) : List Finding :=
  findings.mergeSort fun f g => (Finding.order f g).isLE

/-- Keeps at most `limit` findings. -/
def cut (limit : Nat) (findings : List Finding) : List Finding :=
  if limit = 0 then findings else findings.take limit

/-- What a queue with this policy hands out for findings that arrive in the
given order. -/
def arrange (policy : Policy) (findings : List Finding) : List Finding :=
  let sorted := sort findings
  cut policy.limit (if policy.dropRepeats then sorted.eraseRepsBy Finding.sameReport else sorted)

end Queue

structure Queue where
  policy : Queue.Policy
  pending : Array Finding
  deriving DecidableEq, Repr

namespace Queue

/-- The empty queue. -/
def new (policy : Policy) : Queue := ⟨policy, #[]⟩

def ofList (findings : List Finding) : Queue := ⟨{}, findings.toArray⟩

/-- Number of findings that wait, before any is left out. -/
def size (q : Queue) : Nat := q.pending.size

def isEmpty (q : Queue) : Bool := q.pending.isEmpty

def push (q : Queue) (f : Finding) : Queue := { q with pending := q.pending.push f }

def extend (q : Queue) (findings : List Finding) : Queue :=
  { q with pending := q.pending ++ findings }

/-- Hands out what waits and leaves the queue empty. -/
def flush (q : Queue) : List Finding × Queue :=
  (arrange q.policy q.pending.toList, new q.policy)

@[simp] theorem toList_push (q : Queue) (f : Finding) :
    (q.push f).pending.toList = q.pending.toList ++ [f] := by
  simp [push]

@[simp] theorem toList_extend (q : Queue) (findings : List Finding) :
    (q.extend findings).pending.toList = q.pending.toList ++ findings := by
  simp [extend]

end Queue

end AssertionLint
