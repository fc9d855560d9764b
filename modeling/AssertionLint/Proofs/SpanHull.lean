import AssertionLint.Span
import Mathlib.Data.Set.Image
import Mathlib.Order.Bounds.Basic
import Mathlib.Tactic

/-!
# The hull of spans

The hull of several spans reaches from the smallest of their starts to the largest of
their ends. Merging two hulls gives the hull of all spans behind them, and a hull is
unique. So what merging makes of a list of spans depends on neither their order nor their
grouping, and the laws of merging are those of the union of sets.

The hull covers every offset that one of its spans covers. If none of them is empty, no
smaller span does. The ends of an empty or inverted span count for the hull as well,
although it covers nothing.
-/

namespace AssertionLint.Span

/-! ## Covering -/

/-- Every offset in `s` is in `t`. -/
def Covers (t s : Span) : Prop := ∀ offset, s.contains offset = true → t.contains offset = true

theorem covers_of_le {s t : Span} (hstart : t.start ≤ s.start) (hstop : s.stop ≤ t.stop) :
    t.Covers s := by
  intro offset ho
  rw [contains_iff] at ho ⊢
  exact ⟨UInt32.le_trans hstart ho.1, UInt32.lt_of_lt_of_le ho.2 hstop⟩

/-- What covers a span that is not empty reaches as far as the span. -/
theorem Covers.le {s t : Span} (h : t.Covers s) (hs : s.isEmpty = false) :
    t.start ≤ s.start ∧ s.stop ≤ t.stop := by
  have hlt : s.start < s.stop := by simpa [isEmpty] using hs
  have hfirst := h s.start ((contains_iff _ _).mpr ⟨UInt32.le_refl _, hlt⟩)
  rw [contains_iff] at hfirst
  refine ⟨hfirst.1, UInt32.not_lt.mp ?_⟩
  -- Otherwise `t` would have its own end in it.
  intro hbeyond
  have hstop := h t.stop ((contains_iff _ _).mpr ⟨UInt32.le_of_lt hfirst.2, hbeyond⟩)
  exact UInt32.lt_irrefl _ ((contains_iff _ _).mp hstop).2

/-! ## Hulls -/

/-- The span reaches from the smallest start of the spans to their largest end. -/
structure IsHull (spans : Set Span) (hull : Span) : Prop where
  least : IsLeast (Span.start '' spans) hull.start
  greatest : IsGreatest (Span.stop '' spans) hull.stop

theorem isHull_singleton (s : Span) : IsHull {s} s := by
  constructor <;> constructor <;> simp [lowerBounds, upperBounds]

/-- The hull of several spans is unique. -/
theorem IsHull.eq {spans : Set Span} {s t : Span} (hs : IsHull spans s) (ht : IsHull spans t) :
    s = t := by
  have hstart : s.start = t.start :=
    UInt32.le_antisymm (hs.least.2 ht.least.1) (ht.least.2 hs.least.1)
  have hstop : s.stop = t.stop :=
    UInt32.le_antisymm (ht.greatest.2 hs.greatest.1) (hs.greatest.2 ht.greatest.1)
  cases s
  cases t
  rw [Span.mk.injEq]
  exact ⟨hstart, hstop⟩

theorem isLeast_union {xs ys : Set UInt32} {x y : UInt32} (hx : IsLeast xs x)
    (hy : IsLeast ys y) : IsLeast (xs ∪ ys) (min x y) := by
  change IsLeast _ (if x ≤ y then x else y)
  split_ifs with hxy
  · refine ⟨.inl hx.1, ?_⟩
    rintro z (hz | hz)
    · exact hx.2 hz
    · exact UInt32.le_trans hxy (hy.2 hz)
  · refine ⟨.inr hy.1, ?_⟩
    rintro z (hz | hz)
    · exact UInt32.le_trans (UInt32.le_of_lt (UInt32.not_le.mp hxy)) (hx.2 hz)
    · exact hy.2 hz

theorem isGreatest_union {xs ys : Set UInt32} {x y : UInt32} (hx : IsGreatest xs x)
    (hy : IsGreatest ys y) : IsGreatest (xs ∪ ys) (max x y) := by
  change IsGreatest _ (if x ≤ y then y else x)
  split_ifs with hxy
  · refine ⟨.inr hy.1, ?_⟩
    rintro z (hz | hz)
    · exact UInt32.le_trans (hx.2 hz) hxy
    · exact hy.2 hz
  · refine ⟨.inl hx.1, ?_⟩
    rintro z (hz | hz)
    · exact hx.2 hz
    · exact UInt32.le_trans (hy.2 hz) (UInt32.le_of_lt (UInt32.not_le.mp hxy))

/-- Merging two hulls gives the hull of all spans, whether or not they share some. -/
theorem IsHull.merge {spans spans' : Set Span} {s t : Span} (hs : IsHull spans s)
    (ht : IsHull spans' t) : IsHull (spans ∪ spans') (s.merge t) := by
  constructor
  · rw [Set.image_union]
    exact isLeast_union hs.least ht.least
  · rw [Set.image_union]
    exact isGreatest_union hs.greatest ht.greatest

/-- A hull covers what its spans cover. -/
theorem IsHull.contains {spans : Set Span} {hull s : Span} (h : IsHull spans hull)
    (hs : s ∈ spans) {offset : UInt32} (ho : s.contains offset = true) :
    hull.contains offset = true := by
  have hstart := h.least.2 (Set.mem_image_of_mem Span.start hs)
  have hstop := h.greatest.2 (Set.mem_image_of_mem Span.stop hs)
  exact covers_of_le hstart hstop offset ho

/-- What covers each of several spans that are not empty reaches as far as their hull. -/
theorem IsHull.le_of_covers {spans : Set Span} {hull t : Span} (h : IsHull spans hull)
    (hfull : ∀ s ∈ spans, s.isEmpty = false) (ht : ∀ s ∈ spans, t.Covers s) :
    t.start ≤ hull.start ∧ hull.stop ≤ t.stop := by
  obtain ⟨first, hfirst, hstart⟩ := h.least.1
  obtain ⟨last, hlast, hstop⟩ := h.greatest.1
  rw [← hstart, ← hstop]
  exact ⟨((ht first hfirst).le (hfull first hfirst)).1,
    ((ht last hlast).le (hfull last hlast)).2⟩

/-! ## The laws of merging -/

theorem isHull_pair (s t : Span) : IsHull ({s} ∪ {t}) (s.merge t) :=
  (isHull_singleton s).merge (isHull_singleton t)

theorem merge_assoc (s t u : Span) : (s.merge t).merge u = s.merge (t.merge u) := by
  have hleft := (isHull_pair s t).merge (isHull_singleton u)
  have hright := (isHull_singleton s).merge (isHull_pair t u)
  rw [← Set.union_assoc] at hright
  exact hleft.eq hright

theorem merge_comm (s t : Span) : s.merge t = t.merge s := by
  have hswap := isHull_pair t s
  rw [Set.union_comm] at hswap
  exact (isHull_pair s t).eq hswap

theorem merge_self (s : Span) : s.merge s = s := by
  have hpair := isHull_pair s s
  rw [Set.union_self] at hpair
  exact hpair.eq (isHull_singleton s)

/-! ## Merging lists -/

theorem isHull_foldl {spans : Set Span} {s : Span} (h : IsHull spans s) (rest : List Span) :
    IsHull (spans ∪ {t | t ∈ rest}) (rest.foldl merge s) := by
  induction rest generalizing spans s with
  | nil => simpa using h
  | cons t rest ih =>
    have hset : spans ∪ {u | u ∈ t :: rest} = spans ∪ {t} ∪ {u | u ∈ rest} := by
      ext u
      simp [or_assoc, or_left_comm]
    rw [hset]
    exact ih (h.merge (isHull_singleton t))

theorem exists_cover? {spans : List Span} (hne : spans ≠ []) :
    ∃ hull, cover? spans = some hull ∧ IsHull {s | s ∈ spans} hull := by
  obtain ⟨s, rest, rfl⟩ := List.exists_cons_of_ne_nil hne
  refine ⟨rest.foldl merge s, rfl, ?_⟩
  have hset : {t | t ∈ s :: rest} = {s} ∪ {t | t ∈ rest} := by
    ext t
    simp
  rw [hset]
  exact isHull_foldl (isHull_singleton s) rest

/-- A way of merging at least one span, two at a time. -/
inductive Grouping where
  | single (s : Span)
  | both (left right : Grouping)
  deriving DecidableEq, Repr

namespace Grouping

/-- What is merged, from left to right. -/
def spans : Grouping → List Span
  | single s => [s]
  | both left right => left.spans ++ right.spans

def merged : Grouping → Span
  | single s => s
  | both left right => left.merged.merge right.merged

theorem isHull_merged (g : Grouping) : IsHull {s | s ∈ g.spans} g.merged := by
  induction g with
  | single s => simpa [spans, merged] using isHull_singleton s
  | both left right hleft hright =>
    have hset : {s | s ∈ (both left right).spans} =
        {s | s ∈ left.spans} ∪ {s | s ∈ right.spans} := by
      ext s
      simp [spans]
    rw [hset]
    exact hleft.merge hright

end Grouping

/-- Merging is associative, commutative and idempotent, so every order and every grouping
of a list of spans is merged into one span, which is their hull. It covers all of them, and
unless one of them is empty, whatever covers all of them covers it and reaches as far. -/
theorem least_cover_of_merge :
    (∀ s t u : Span, (s.merge t).merge u = s.merge (t.merge u)) ∧
    (∀ s t : Span, s.merge t = t.merge s) ∧
    (∀ s : Span, s.merge s = s) ∧
    ∀ spans : List Span, spans ≠ [] → ∃ hull, IsHull {s | s ∈ spans} hull ∧
      (∀ spans' : List Span, spans'.Perm spans → cover? spans' = some hull) ∧
      (∀ g : Grouping, g.spans.Perm spans → g.merged = hull) ∧
      (∀ s ∈ spans, hull.Covers s) ∧
      ((∀ s ∈ spans, s.isEmpty = false) → ∀ t : Span, (∀ s ∈ spans, t.Covers s) →
        t.start ≤ hull.start ∧ hull.stop ≤ t.stop ∧ t.Covers hull) := by
  refine ⟨merge_assoc, merge_comm, merge_self, ?_⟩
  intro spans hne
  obtain ⟨hull, -, hhull⟩ := exists_cover? hne
  refine ⟨hull, hhull, ?_, ?_, ?_, ?_⟩
  · intro spans' hperm
    have hne' : spans' ≠ [] := by
      rintro rfl
      exact hne (List.nil_perm.mp hperm)
    obtain ⟨hull', hcover, hhull'⟩ := exists_cover? hne'
    simp only [hperm.mem_iff] at hhull'
    rw [hcover, hhull'.eq hhull]
  · intro g hperm
    have hmerged := g.isHull_merged
    simp only [hperm.mem_iff] at hmerged
    exact hmerged.eq hhull
  · intro s hs offset ho
    exact hhull.contains hs ho
  · intro hfull t ht
    obtain ⟨hstart, hstop⟩ := hhull.le_of_covers hfull ht
    exact ⟨hstart, hstop, covers_of_le hstart hstop⟩

/-- Three spans with a gap between two of them, in two orders and two groupings. -/
theorem least_cover_of_merge_gap :
    let spans : List Span := [⟨20, 30⟩, ⟨10, 25⟩, ⟨4, 6⟩]
    let reordered : List Span := [⟨4, 6⟩, ⟨20, 30⟩, ⟨10, 25⟩]
    let g : Grouping := .both (.single ⟨4, 6⟩) (.both (.single ⟨20, 30⟩) (.single ⟨10, 25⟩))
    let hull : Span := ⟨4, 30⟩
    let wide : Span := ⟨0, 40⟩
    spans ≠ [] ∧ IsHull {s | s ∈ spans} hull ∧
      reordered.Perm spans ∧ cover? reordered = some hull ∧
      g.spans.Perm spans ∧ g.merged = hull ∧
      (⟨10, 25⟩ : Span) ∈ spans ∧ hull.Covers ⟨10, 25⟩ ∧
      (∀ s ∈ spans, s.isEmpty = false) ∧ (∀ s ∈ spans, wide.Covers s) ∧
      wide.start ≤ hull.start ∧ hull.stop ≤ wide.stop ∧ wide.Covers hull := by
  intro spans reordered g hull wide
  have hne : spans ≠ [] := by decide
  have hreordered : reordered.Perm spans := by decide
  have hg : g.spans.Perm spans := by decide
  have hmem : (⟨10, 25⟩ : Span) ∈ spans := by decide
  have hfull : ∀ s ∈ spans, s.isEmpty = false := by decide
  have hreach : ∀ s ∈ spans, wide.start ≤ s.start ∧ s.stop ≤ wide.stop := by decide
  have hwide : ∀ s ∈ spans, wide.Covers s :=
    fun s hs => covers_of_le (hreach s hs).1 (hreach s hs).2
  obtain ⟨hull', hhull, hcover, hmerged, hcovers, hleast⟩ := least_cover_of_merge.2.2.2 spans hne
  obtain rfl : hull' = hull := Option.some.inj (hcover spans (.refl spans)).symm
  exact ⟨hne, hhull, hreordered, hcover reordered hreordered, hg, hmerged g hg, hmem,
    hcovers _ hmem, hfull, hwide, hleast hfull wide hwide⟩

end AssertionLint.Span
