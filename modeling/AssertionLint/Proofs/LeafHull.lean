import AssertionLint.Proofs.ArenaHistory
import AssertionLint.Proofs.SpanHull

/-!
# The span of a binary expression

The span of a binary expression reaches from the smallest start to the largest end of
the spans of its leaves, which are the nodes below it that were not added as binary
expressions. Operands are older than the expressions they belong to, so the argument
goes from smaller numbers to larger ones; operands may be shared.
-/

namespace AssertionLint

namespace Arena

/-- The step `s` of the run has returned `id`. -/
def Made (steps : List Step) (id : ExprId) (s : Step) : Prop :=
  ∃ n : ℕ, steps[n]? = some s ∧ (empty.run steps).1[n]? = some (Except.ok id)

/-! ## Leaves -/

/-- The span that a step gives to its node. A binary expression is given none. -/
def Step.givenSpan? : Step → Option Span
  | alloc _ span => some span
  | ident _ span => some span
  | literal _ span => some span
  | binary .. => none

/-- The span was given to a leaf that can be reached from a node of a run through
operands. What was not added as a binary expression is a leaf, whatever its shape. -/
inductive LeafSpan (steps : List Step) : ExprId → Span → Prop
  | leaf {id : ExprId} {s : Step} {span : Span} :
    Made steps id s → s.givenSpan? = some span → LeafSpan steps id span
  | left {id l r : ExprId} {op : BinaryOp} {span : Span} :
    Made steps id (.binary op l r) → LeafSpan steps l span → LeafSpan steps id span
  | right {id l r : ExprId} {op : BinaryOp} {span : Span} :
    Made steps id (.binary op l r) → LeafSpan steps r span → LeafSpan steps id span

/-- The spans of the leaves that can be reached from a node. -/
def leafSpans (steps : List Step) (id : ExprId) : Set Span := { span | LeafSpan steps id span }

/-- The operands of each binary expression are numbers that were returned before. -/
def OperandsAllocated (steps : List Step) : Prop :=
  ∀ n op l r, steps[n]? = some (.binary op l r) →
    Except.ok l ∈ (empty.run (steps.take n)).1 ∧ Except.ok r ∈ (empty.run (steps.take n)).1

variable {steps : List Step}

/-- The step that has returned a number is found by it. -/
theorem made_iff {id : ExprId} {s : Step} :
    Made steps id s ↔ steps[id.index]? = some s ∧ id.index < UInt32.size - 1 := by
  simp only [Made, getElem?_outputs_eq_ok]
  constructor
  · rintro ⟨_, hs, -, hlt, rfl⟩
    exact ⟨hs, hlt⟩
  · rintro ⟨hs, hlt⟩
    exact ⟨id.index, hs, (List.getElem?_eq_some_iff.mp hs).choose, hlt, rfl⟩

theorem Made.unique {id : ExprId} {s s' : Step} (h : Made steps id s) (h' : Made steps id s') :
    s = s' :=
  Option.some.inj ((made_iff.mp h).1.symm.trans (made_iff.mp h').1)

theorem leafSpans_of_leaf {id : ExprId} {s : Step} {span : Span} (hid : Made steps id s)
    (hspan : s.givenSpan? = some span) : leafSpans steps id = {span} := by
  ext span'
  constructor
  · intro hleaf
    cases hleaf with
    | leaf hid' hspan' =>
      rw [hid'.unique hid, hspan] at hspan'
      exact (Option.some.inj hspan').symm
    | left hid' _ | right hid' _ =>
      rw [hid.unique hid'] at hspan
      cases hspan
  · rintro rfl
    exact .leaf hid hspan

theorem leafSpans_of_binary {id l r : ExprId} {op : BinaryOp}
    (hid : Made steps id (.binary op l r)) :
    leafSpans steps id = leafSpans steps l ∪ leafSpans steps r := by
  ext span
  constructor
  · intro hleaf
    cases hleaf with
    | leaf hid' hspan =>
      rw [hid'.unique hid] at hspan
      cases hspan
    | left hid' hleaf =>
      cases hid'.unique hid
      exact .inl hleaf
    | right hid' hleaf =>
      cases hid'.unique hid
      exact .inr hleaf
  · rintro (hleaf | hleaf)
    · exact .left hid hleaf
    · exact .right hid hleaf

/-! ## Numbers and spans of a run -/

/-- The number of an operand was returned by an earlier step. -/
theorem exists_made_of_mem {n : ℕ} {id : ExprId}
    (h : Except.ok id ∈ (empty.run (steps.take n)).1) :
    id.index < n ∧ ∃ s, Made steps id s := by
  obtain ⟨m, hm⟩ := List.mem_iff_getElem?.mp h
  obtain ⟨hlen, hlt, rfl⟩ := getElem?_outputs_eq_ok.mp hm
  rw [List.length_take] at hlen
  have hn : id.index < steps.length := by omega
  exact ⟨by omega, steps[id.index], made_iff.mpr ⟨List.getElem?_eq_getElem hn, hlt⟩⟩

/-- Later steps leave the spans of earlier nodes as they are. -/
theorem span?_take {n : ℕ} {id : ExprId} {s : Step} (hid : Made steps id s)
    (h : id.index < n) :
    (empty.run (steps.take n)).2.span? id = (empty.run steps).2.span? id := by
  obtain ⟨hs, hlt⟩ := made_iff.mp hid
  have hlen : id.index < steps.length := (List.getElem?_eq_some_iff.mp hs).choose
  have hold : id.index < (empty.run (steps.take n)).2.spans.size := by
    rw [inStep_run (steps.take n), size_run, List.length_take]
    omega
  have hext := extends_run (empty.run (steps.take n)).2 (steps.drop n)
  have hrun := run_append empty (steps.take n) (steps.drop n)
  rw [List.take_append_drop] at hrun
  rw [hrun]
  exact (hext.span?_eq hold).symm

theorem span?_of_made {id : ExprId} {s : Step} (hid : Made steps id s) :
    (empty.run steps).2.span? id = some (s.spanIn (empty.run (steps.take id.index)).2) := by
  obtain ⟨hs, hlt⟩ := made_iff.mp hid
  obtain ⟨hlen, rfl⟩ := List.getElem?_eq_some_iff.mp hs
  have hsteps : steps = steps.take id.index ++ steps[id.index] :: steps.drop (id.index + 1) := by
    rw [← List.drop_eq_getElem_cons hlen, List.take_append_drop]
  have hindex : id.index = (steps.take id.index).length := by
    rw [List.length_take]
    omega
  have hlookup : (empty.run
      (steps.take id.index ++ steps[id.index] :: steps.drop (id.index + 1))).2.span? id =
      some (steps[id.index].spanIn (empty.run (steps.take id.index)).2) :=
    (lookup_of_step hindex hlt).2
  rwa [← hsteps] at hlookup

theorem span?_of_leaf {id : ExprId} {s : Step} {span : Span} (hid : Made steps id s)
    (hspan : s.givenSpan? = some span) : (empty.run steps).2.span? id = some span := by
  rw [span?_of_made hid]
  cases s with
  | binary => cases hspan
  | _ => exact hspan

theorem span?_of_binary (h : OperandsAllocated steps) {id l r : ExprId} {op : BinaryOp}
    (hid : Made steps id (.binary op l r)) :
    (empty.run steps).2.span? id =
      some (joinSpans ((empty.run steps).2.span? l) ((empty.run steps).2.span? r)) := by
  obtain ⟨hleft, hright⟩ := h _ _ _ _ (made_iff.mp hid).1
  obtain ⟨hl, _, hmadeLeft⟩ := exists_made_of_mem hleft
  obtain ⟨hr, _, hmadeRight⟩ := exists_made_of_mem hright
  rw [span?_of_made hid, Step.spanIn, span?_take hmadeLeft hl, span?_take hmadeRight hr]

/-- Every node has the hull of the leaves below it as its span. -/
theorem exists_isHull (h : OperandsAllocated steps) {id : ExprId} {s : Step}
    (hid : Made steps id s) :
    ∃ span, (empty.run steps).2.span? id = some span ∧
      Span.IsHull (leafSpans steps id) span := by
  -- Operands have smaller numbers.
  induction hn : id.index using Nat.strong_induction_on generalizing id s with
  | h n ih =>
    subst hn
    cases s with
    | binary op l r =>
      obtain ⟨hleft, hright⟩ := h _ _ _ _ (made_iff.mp hid).1
      obtain ⟨hl, _, hmadeLeft⟩ := exists_made_of_mem hleft
      obtain ⟨hr, _, hmadeRight⟩ := exists_made_of_mem hright
      obtain ⟨left, hleft, hleftHull⟩ := ih l.index hl hmadeLeft rfl
      obtain ⟨right, hright, hrightHull⟩ := ih r.index hr hmadeRight rfl
      refine ⟨left.merge right, ?_, ?_⟩
      · rw [span?_of_binary h hid, hleft, hright, joinSpans]
      · rw [leafSpans_of_binary hid]
        exact hleftHull.merge hrightHull
    | alloc _ span | ident _ span | literal _ span =>
      refine ⟨span, span?_of_leaf hid rfl, ?_⟩
      rw [leafSpans_of_leaf hid rfl]
      exact Span.isHull_singleton _

/-- Every binary expression of every run whose operands were there before. Its span is
the hull of the spans that were given to its leaves; so it covers what one of them covers,
and any other binary expression with the same spans of leaves, in whatever order and
however nested, in this run or another one, has the same span. -/
theorem binary_span_isHull (steps : List Step) (h : OperandsAllocated steps) (id : ExprId)
    (op : BinaryOp) (l r : ExprId) (hid : Made steps id (.binary op l r)) :
    ∃ span, (empty.run steps).2.span? id = some span ∧
      Span.IsHull (leafSpans steps id) span ∧
      (∀ s ∈ leafSpans steps id, ∀ offset, s.contains offset = true →
        span.contains offset = true) ∧
      ∀ (steps' : List Step) (id' : ExprId) (op' : BinaryOp) (l' r' : ExprId),
        OperandsAllocated steps' → Made steps' id' (.binary op' l' r') →
        leafSpans steps' id' = leafSpans steps id →
        (empty.run steps').2.span? id' = some span := by
  obtain ⟨span, hspan, hhull⟩ := exists_isHull h hid
  refine ⟨span, hspan, hhull, fun s hs offset => hhull.contains hs, ?_⟩
  intro steps' id' op' l' r' h' hid' hleaves
  obtain ⟨span', hspan', hhull'⟩ := exists_isHull h' hid'
  rw [hleaves] at hhull'
  rw [hspan', hhull'.eq hhull]

/-- A comparison with an operand that it shares with one of its operands. The span of one
leaf is inverted, and the hull is the span of none of them. -/
theorem binary_span_isHull_shared :
    let steps : List Step := [.ident "x" ⟨9, 20⟩, .literal (.int 1) ⟨4, 6⟩, .ident "y" ⟨7, 2⟩,
      .binary .add ⟨0⟩ ⟨1⟩, .binary .sub ⟨2⟩ ⟨3⟩, .binary .eq ⟨4⟩ ⟨0⟩]
    OperandsAllocated steps ∧ Made steps ⟨5⟩ (.binary .eq ⟨4⟩ ⟨0⟩) ∧
      (empty.run steps).2.span? ⟨5⟩ = some ⟨4, 20⟩ ∧
      Span.IsHull (leafSpans steps ⟨5⟩) ⟨4, 20⟩ := by
  intro steps
  have hallocated : OperandsAllocated steps := by
    intro n op l r hn
    rcases n with _ | _ | _ | _ | _ | _ | n
    iterate 3 cases hn
    iterate 3
      obtain ⟨rfl, rfl, rfl⟩ := Step.binary.inj (Option.some.inj hn)
      decide
    cases hn
  have hmade : Made steps ⟨5⟩ (.binary .eq ⟨4⟩ ⟨0⟩) := ⟨5, rfl, by decide⟩
  obtain ⟨span, hspan, hhull, -⟩ := binary_span_isHull steps hallocated ⟨5⟩ .eq ⟨4⟩ ⟨0⟩ hmade
  have hvalue : (empty.run steps).2.span? ⟨5⟩ = some ⟨4, 20⟩ := by decide
  obtain rfl : span = ⟨4, 20⟩ := Option.some.inj (hspan.symm.trans hvalue)
  exact ⟨hallocated, hmade, hvalue, hhull⟩

end Arena

end AssertionLint
