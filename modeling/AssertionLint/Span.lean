import AssertionLint.Text.Hex

/-!
# Byte spans

A span is a half-open range of byte offsets in one source text. Offsets are
32-bit words. A span whose end lies before its start is a legal value: it
covers no offset, and merging treats its two ends like any others.

Spans are ordered by their start and then by their end, and merging two spans
takes the smaller start and the larger end.
-/

namespace AssertionLint

/-- The offsets from `start` up to and without `stop`. -/
structure Span where
  start : UInt32
  stop : UInt32
  deriving DecidableEq, Repr

namespace Span

/-- The span of nodes that no source text stands behind. -/
def unknown : Span := ⟨0, 0⟩

instance : Inhabited Span := ⟨unknown⟩

/-- The empty span at one offset. -/
def point (offset : UInt32) : Span := ⟨offset, offset⟩

/-- Number of offsets covered. -/
def length (s : Span) : UInt32 :=
  if s.start ≤ s.stop then s.stop - s.start else 0

def isEmpty (s : Span) : Bool := decide (s.stop ≤ s.start)

def contains (s : Span) (offset : UInt32) : Bool :=
  decide (s.start ≤ offset) && decide (offset < s.stop)

/-- The smaller of the two starts and the larger of the two ends. -/
def merge (s t : Span) : Span :=
  ⟨min s.start t.start, max s.stop t.stop⟩

/-- All spans of a list merged into one, if there are any. -/
def cover? : List Span → Option Span
  | [] => none
  | s :: rest => some (rest.foldl merge s)

/-- Spans compare by start, then by end. -/
instance : Ord Span := ⟨compareLex (compareOn Span.start) (compareOn Span.stop)⟩

instance : Std.TransOrd Span :=
  inferInstanceAs (Std.TransCmp (compareLex (compareOn Span.start) (compareOn Span.stop)))

instance : Std.LawfulEqOrd Span where
  eq_of_compare {a b} h := by
    obtain ⟨h₁, h₂⟩ := compareLex_eq_eq.1 h
    have h₁ : a.start = b.start := Std.LawfulEqOrd.eq_of_compare h₁
    have h₂ : a.stop = b.stop := Std.LawfulEqOrd.eq_of_compare h₂
    cases a
    cases b
    simp_all

/-- The spans of a list in increasing order. -/
def sort (spans : List Span) : List Span :=
  spans.mergeSort fun s t => (compare s t).isLE

/-- The different spans of a list, in increasing order. -/
def distinct (spans : List Span) : List Span :=
  (sort spans).eraseReps

/-- The text `start..stop`. -/
def text (s : Span) : String :=
  toString s.start.toNat ++ ".." ++ toString s.stop.toNat

/-- Why a pair of positions is no span: one of them does not fit into a word. -/
inductive RangeError where
  | startTooLarge (offset : Nat)
  | endTooLarge (offset : Nat)
  deriving DecidableEq, Repr

namespace RangeError

/-- The largest offset a span can hold. -/
def limit : Nat := UInt32.size - 1

private def tooLarge (which : String) (offset : Nat) : String :=
  "span " ++ which ++ " " ++ toString offset ++ " (0x" ++ Text.upperHex offset ++
    ") exceeds u32::MAX (0x" ++ Text.upperHex limit ++ ")"

def message : RangeError → String
  | startTooLarge offset => tooLarge "start" offset
  | endTooLarge offset => tooLarge "end" offset

end RangeError

/-- The span between two positions of unbounded size. The start is judged first. -/
def ofRange (start stop : Nat) : Except RangeError Span :=
  if start > RangeError.limit then .error (.startTooLarge start)
  else if stop > RangeError.limit then .error (.endTooLarge stop)
  else .ok ⟨UInt32.ofNat start, UInt32.ofNat stop⟩

@[simp] theorem start_merge (s t : Span) : (s.merge t).start = min s.start t.start := rfl

@[simp] theorem stop_merge (s t : Span) : (s.merge t).stop = max s.stop t.stop := rfl

theorem contains_iff (s : Span) (offset : UInt32) :
    s.contains offset = true ↔ s.start ≤ offset ∧ offset < s.stop := by
  simp [contains]

end Span

end AssertionLint
