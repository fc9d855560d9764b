import AssertionLint.Arena
import AssertionLint.Proofs.StepRuns
import Mathlib.Data.List.Basic
import Mathlib.Data.List.Nodup
import Mathlib.Tactic

/-!
# Whole runs of an arena

A run is any sequence of additions. Each of them adds a shape and a span behind all
others, or nothing if there is no number left, so the two arrays stay in step, what a
number refers to is settled once the number has been handed out, and no later
addition changes it. The numbers count the nodes until the one that stands for no
expression is reached; from there on all additions fail.
-/

namespace AssertionLint.Arena

/-- What can be added to an arena. -/
inductive Step where
  | alloc (shape : Shape) (span : Span)
  | ident (name : String) (span : Span)
  | literal (value : Literal) (span : Span)
  | binary (op : BinaryOp) (left right : ExprId)
  deriving DecidableEq, Repr

/-- The number that a step returns, and the arena after it. -/
def step (a : Arena) : Step → Except Overflow ExprId × Arena
  | .alloc shape span => a.alloc shape span
  | .ident name span => a.alloc (.ident name) span
  | .literal value span => a.alloc (.literal value) span
  | .binary op left right => a.allocBinary op left right

/-- The shape that a step asks for. -/
def Step.shape : Step → Shape
  | alloc shape _ => shape
  | ident name _ => .ident name
  | literal value _ => .literal value
  | binary op left right => .binary op left right

/-- The span of the node that a step adds to an arena. -/
def Step.spanIn (a : Arena) : Step → Span
  | alloc _ span => span
  | ident _ span => span
  | literal _ span => span
  | binary _ left right => joinSpans (a.span? left) (a.span? right)

/-- What the steps of a run return, in order, and the arena at its end. -/
def run (a : Arena) (steps : List Step) : List (Except Overflow ExprId) × Arena :=
  runSteps (fun a s => ([(a.step s).1], (a.step s).2)) a steps

/-! ## One step -/

theorem idOf_of_lt {n : ℕ} (h : n < UInt32.size - 1) : idOf n = .ok ⟨UInt32.ofNat n⟩ :=
  if_pos h

theorem idOf_of_le {n : ℕ} (h : UInt32.size - 1 ≤ n) : idOf n = .error ⟨n⟩ :=
  if_neg h.not_gt

theorem idOf_eq_ok {n : ℕ} {id : ExprId} :
    idOf n = .ok id ↔ n < UInt32.size - 1 ∧ id.index = n := by
  by_cases h : n < UInt32.size - 1
  · have hindex : ExprId.index ⟨UInt32.ofNat n⟩ = n := UInt32.toNat_ofNat_of_lt' (by omega)
    rw [idOf_of_lt h, Except.ok.injEq]
    constructor
    · rintro rfl
      exact ⟨h, hindex⟩
    · rintro ⟨-, hid⟩
      exact congrArg ExprId.mk (UInt32.toNat_inj.mp (hindex.trans hid.symm))
  · rw [idOf_of_le (not_lt.mp h)]
    exact ⟨nofun, fun hid => absurd hid.1 h⟩

/-- Whatever the step, it asks for one node. -/
theorem step_eq_alloc (a : Arena) (s : Step) : a.step s = a.alloc s.shape (s.spanIn a) := by
  cases s <;> rfl

/-- A step adds one node and returns its number, as long as there are numbers left. -/
theorem step_of_lt {a : Arena} (h : a.size < UInt32.size - 1) (s : Step) :
    a.step s =
      (.ok ⟨UInt32.ofNat a.size⟩, ⟨a.shapes.push s.shape, a.spans.push (s.spanIn a)⟩) := by
  rw [step_eq_alloc, alloc, idOf_of_lt h]

theorem step_of_le {a : Arena} (h : UInt32.size - 1 ≤ a.size) (s : Step) :
    a.step s = (.error ⟨a.size⟩, a) := by
  rw [step_eq_alloc, alloc, idOf_of_le h]

theorem fst_step (a : Arena) (s : Step) : (a.step s).1 = idOf a.size := by
  rcases lt_or_ge a.size (UInt32.size - 1) with h | h
  · rw [step_of_lt h, idOf_of_lt h]
  · rw [step_of_le h, idOf_of_le h]

theorem size_step (a : Arena) (s : Step) :
    (a.step s).2.size = if a.size < UInt32.size - 1 then a.size + 1 else a.size := by
  split_ifs with h
  · rw [step_of_lt h, size, Array.size_push, size]
  · rw [step_of_le (not_lt.mp h)]

/-- The two arrays have entries for the same nodes. -/
def InStep (a : Arena) : Prop := a.spans.size = a.size

theorem InStep.step {a : Arena} (h : a.InStep) (s : Step) : (a.step s).2.InStep := by
  rcases lt_or_ge a.size (UInt32.size - 1) with hlt | hle
  · rw [step_of_lt hlt]
    simpa [InStep, size] using h
  · rwa [step_of_le hle]

/-- The second arena has all nodes of the first one under the same numbers, and perhaps
more. -/
structure Extends (a a' : Arena) : Prop where
  shapes : a.shapes.toList.IsPrefix a'.shapes.toList
  spans : a.spans.toList.IsPrefix a'.spans.toList

theorem Extends.refl (a : Arena) : a.Extends a := ⟨List.prefix_rfl, List.prefix_rfl⟩

theorem Extends.trans {a b c : Arena} (h : a.Extends b) (h' : b.Extends c) : a.Extends c :=
  ⟨h.shapes.trans h'.shapes, h.spans.trans h'.spans⟩

theorem extends_step (a : Arena) (s : Step) : a.Extends (a.step s).2 := by
  rcases lt_or_ge a.size (UInt32.size - 1) with h | h
  · rw [step_of_lt h]
    constructor <;> simp
  · rw [step_of_le h]
    exact .refl a

theorem getElem?_of_isPrefix {α : Type} {xs ys : Array α} (h : xs.toList.IsPrefix ys.toList)
    {i : ℕ} (hi : i < xs.size) : ys[i]? = xs[i]? := by
  obtain ⟨more, hmore⟩ := h
  rw [← Array.getElem?_toList, ← Array.getElem?_toList, ← hmore]
  exact List.getElem?_append_left (by simpa using hi)

section Extends

variable {a a' : Arena} {id : ExprId} (h : a.Extends a')
include h

theorem Extends.size_le : a.size ≤ a'.size := by
  simpa [size] using h.shapes.length_le

theorem Extends.shape?_eq (hid : id.index < a.size) : a'.shape? id = a.shape? id :=
  getElem?_of_isPrefix h.shapes hid

theorem Extends.span?_eq (hid : id.index < a.spans.size) : a'.span? id = a.span? id :=
  getElem?_of_isPrefix h.spans hid

end Extends

/-! ## Runs -/

theorem run_concat (a : Arena) (steps : List Step) (s : Step) :
    a.run (steps ++ [s]) =
      ((a.run steps).1 ++ [((a.run steps).2.step s).1], ((a.run steps).2.step s).2) :=
  runSteps_concat _ a steps s

theorem run_append (a : Arena) (steps later : List Step) :
    a.run (steps ++ later) =
      ((a.run steps).1 ++ ((a.run steps).2.run later).1, ((a.run steps).2.run later).2) :=
  runSteps_append _ a steps later

/-- What a number refers to stays as it is. -/
theorem extends_run (a : Arena) (steps : List Step) : a.Extends (a.run steps).2 :=
  runSteps_invariant (P := a.Extends) (fun b s h => h.trans (b.extends_step s)) (.refl a) steps

theorem inStep_run (steps : List Step) : (empty.run steps).2.InStep :=
  runSteps_invariant (P := InStep) (fun _ s h => h.step s) (Eq.refl (empty.spans.size)) steps

/-- A run adds one node for each step until there is no number left. -/
theorem size_run (steps : List Step) :
    (empty.run steps).2.size = min steps.length (UInt32.size - 1) := by
  induction steps using List.reverseRecOn with
  | nil => rfl
  | append_singleton steps s ih =>
    rw [run_concat, size_step, ih, List.length_append, List.length_singleton]
    split_ifs <;> omega

theorem outputs_run (steps : List Step) :
    (empty.run steps).1 =
      (List.range steps.length).map fun n => idOf (min n (UInt32.size - 1)) := by
  induction steps using List.reverseRecOn with
  | nil => rfl
  | append_singleton steps s ih =>
    rw [run_concat, fst_step, size_run, ih, List.length_append, List.length_singleton,
      List.range_succ, List.map_append, List.map_singleton]

/-- Numbers are returned in the order of counting. -/
theorem getElem?_outputs_eq_ok {steps : List Step} {n : ℕ} {id : ExprId} :
    (empty.run steps).1[n]? = some (Except.ok id) ↔
      n < steps.length ∧ n < UInt32.size - 1 ∧ id.index = n := by
  rw [outputs_run, List.getElem?_map, Option.map_eq_some_iff]
  simp only [List.getElem?_eq_some_iff, List.length_range, List.getElem_range, exists_prop,
    idOf_eq_ok]
  constructor
  · rintro ⟨_, ⟨hn, rfl⟩, hlt, hid⟩
    omega
  · rintro ⟨hn, hlt, hid⟩
    exact ⟨n, ⟨hn, rfl⟩, by omega, by omega⟩

/-- What a step asked for is found at the end of the run. -/
theorem lookup_of_step {before after : List Step} {s : Step} {id : ExprId}
    (hid : id.index = before.length) (hlt : id.index < UInt32.size - 1) :
    (empty.run (before ++ s :: after)).2.shape? id = some s.shape ∧
      (empty.run (before ++ s :: after)).2.span? id =
        some (s.spanIn (empty.run before).2) := by
  have hsize : (empty.run before).2.size = id.index := by
    rw [size_run]
    omega
  have hspans : (empty.run before).2.spans.size = id.index := (inStep_run before).trans hsize
  have hext : (empty.run (before ++ [s])).2.Extends (empty.run (before ++ s :: after)).2 := by
    have hrun := run_append empty (before ++ [s]) after
    rw [List.append_assoc, List.singleton_append] at hrun
    rw [hrun]
    exact extends_run _ after
  have hlast : (empty.run (before ++ [s])).2 =
      ⟨(empty.run before).2.shapes.push s.shape,
        (empty.run before).2.spans.push (s.spanIn (empty.run before).2)⟩ := by
    rw [run_concat, step_of_lt (by omega)]
  rw [hlast] at hext
  constructor
  · rw [hext.shape?_eq (by rw [size, Array.size_push, ← size, hsize]; omega), shape?, ← hsize]
    exact Array.getElem?_push_size
  · rw [hext.span?_eq (by rw [Array.size_push, hspans]; omega), span?, ← hspans]
    exact Array.getElem?_push_size

/-! ## Numbers and nodes -/

theorem isSome_shape?_iff (a : Arena) (id : ExprId) :
    (a.shape? id).isSome = true ↔ id.index < a.size := by
  simp [shape?, size]

theorem InStep.isSome_span?_iff {a : Arena} (h : a.InStep) (id : ExprId) :
    (a.span? id).isSome = true ↔ id.index < a.size := by
  rw [← h]
  simp [span?]

theorem mapM_eq_ok {α β ε : Type} {f : α → Except ε β} {g : α → β} {as : List α}
    (h : ∀ a ∈ as, f a = .ok (g a)) : as.mapM f = .ok (as.map g) := by
  induction as with
  | nil => rfl
  | cons a as ih =>
    rw [List.mapM_cons, h a List.mem_cons_self, ih fun b hb => h b (List.mem_cons_of_mem a hb)]
    rfl

/-- An arena whose nodes all have numbers lists them. -/
theorem toList_eq_ok {a : Arena} (h : a.size ≤ UInt32.size - 1) :
    a.toList = .ok (a.shapes.toList.zipIdx.map fun (shape, i) => (⟨UInt32.ofNat i⟩, shape)) := by
  apply mapM_eq_ok
  rintro ⟨shape, i⟩ hi
  have hlt : i < a.size := by
    simpa [size] using (List.mem_zipIdx hi).2.1
  simp only [idOf_of_lt (show i < UInt32.size - 1 by omega)]
  rfl

/-- An arena lists every shape under its number. -/
theorem shape?_of_getElem?_toList {a : Arena} (h : a.size ≤ UInt32.size - 1)
    {nodes : List (ExprId × Shape)} (hnodes : a.toList = .ok nodes) :
    nodes.length = a.size ∧ ∀ i id shape, nodes[i]? = some (id, shape) →
      id.index = i ∧ a.shape? id = some shape := by
  rw [toList_eq_ok h, Except.ok.injEq] at hnodes
  subst hnodes
  refine ⟨by simp [size], ?_⟩
  intro i id shape hi
  simp only [List.getElem?_map, List.getElem?_zipIdx, Option.map_map, Option.map_eq_some_iff,
    Function.comp_apply, Prod.mk.injEq, zero_add] at hi
  obtain ⟨x, hx, rfl, rfl⟩ := hi
  rw [Array.getElem?_toList] at hx
  have hlt : i < a.size := (Array.getElem?_eq_some_iff.mp hx).choose
  have hindex : ExprId.index ⟨UInt32.ofNat i⟩ = i := UInt32.toNat_ofNat_of_lt' (by omega)
  exact ⟨hindex, by rw [shape?, hindex, hx]⟩

/-- How the numbers that a run from an empty arena returns and the arena at its end
depend on the steps of the run. -/
structure Numbering (steps : List Step) (ids : List ExprId) (a : Arena) : Prop where
  size : a.size = steps.length
  /-- The numbers count the steps from zero. -/
  index : ids.map ExprId.index = List.range steps.length
  distinct : ids.Nodup
  valid : ∀ id ∈ ids, id.isValid = true
  shape_known : ∀ id, (a.shape? id).isSome = true ↔ id.index < a.size
  span_known : ∀ id, (a.span? id).isSome = true ↔ id.index < a.size
  invalid : a.shape? .invalid = none ∧ a.span? .invalid = none
  /-- A number refers to what the step that returned it asked for, whatever the
  operands of a binary expression refer to. -/
  allocated : ∀ before s after, steps = before ++ s :: after →
    ∀ id, ids[before.length]? = some id →
      a.shape? id = some s.shape ∧ a.span? id = some (s.spanIn (empty.run before).2)
  /-- Once a number refers to a node, it does so for the rest of the run. -/
  stable : ∀ before after, steps = before ++ after →
    ∀ id : ExprId, id.index < (empty.run before).2.size →
      a.shape? id = (empty.run before).2.shape? id ∧
        a.span? id = (empty.run before).2.span? id
  /-- The nodes are listed with their numbers, from the first one to the last. -/
  listed : ∃ nodes, a.toList = .ok nodes ∧ nodes.length = a.size ∧
    ∀ i id shape, nodes[i]? = some (id, shape) → id.index = i ∧ a.shape? id = some shape

theorem index_invalid : ExprId.invalid.index = UInt32.size - 1 := rfl

theorem isValid_of_index_lt {id : ExprId} (h : id.index < UInt32.size - 1) :
    id.isValid = true := by
  rw [ExprId.isValid, bne_iff_ne]
  rintro rfl
  exact absurd index_invalid h.ne

/-- The first so many numbers. -/
def firstIds (n : ℕ) : List ExprId := (List.range n).map fun i => ⟨UInt32.ofNat i⟩

theorem map_index_firstIds {n : ℕ} (h : n ≤ UInt32.size) :
    (firstIds n).map ExprId.index = List.range n := by
  rw [firstIds, List.map_map]
  conv_rhs => rw [← List.map_id (List.range n)]
  apply List.map_congr_left
  intro i hi
  have hlt : i < n := List.mem_range.mp hi
  exact UInt32.toNat_ofNat_of_lt' (by omega)

theorem index_of_getElem?_firstIds {n i : ℕ} {id : ExprId} (h : n ≤ UInt32.size)
    (hid : (firstIds n)[i]? = some id) : id.index = i ∧ i < n := by
  have hindex : ((firstIds n).map ExprId.index)[i]? = some id.index := by
    rw [List.getElem?_map, hid]
    rfl
  rw [map_index_firstIds h, List.getElem?_eq_some_iff] at hindex
  obtain ⟨hlt, hindex⟩ := hindex
  rw [← hindex, List.getElem_range]
  exact ⟨rfl, by simpa using hlt⟩

/-- As long as no number has run out, a run returns the first numbers. -/
theorem outputs_run_of_lt {steps : List Step} (h : steps.length < UInt32.size - 1) :
    (empty.run steps).1 = (firstIds steps.length).map Except.ok := by
  rw [outputs_run, firstIds, List.map_map]
  apply List.map_congr_left
  intro n hn
  have hlt : n < steps.length := List.mem_range.mp hn
  rw [min_eq_left (by omega), idOf_of_lt (by omega)]
  rfl

theorem numbering_run {steps : List Step} (h : steps.length < UInt32.size - 1) :
    Numbering steps (firstIds steps.length) (empty.run steps).2 := by
  have hsize : (empty.run steps).2.size = steps.length := by
    rw [size_run]
    omega
  have hindex : (firstIds steps.length).map ExprId.index = List.range steps.length :=
    map_index_firstIds (by omega)
  have hshape := isSome_shape?_iff (empty.run steps).2
  have hspan := (inStep_run steps).isSome_span?_iff
  have hinvalid : ¬ExprId.invalid.index < (empty.run steps).2.size := by
    rw [index_invalid]
    omega
  exact {
    size := hsize
    index := hindex
    distinct := by
      apply List.Nodup.of_map ExprId.index
      rw [hindex]
      exact List.nodup_range
    valid := by
      intro id hid
      have hlt : id.index ∈ List.range steps.length := by
        rw [← hindex]
        exact List.mem_map_of_mem hid
      rw [List.mem_range] at hlt
      exact isValid_of_index_lt (by omega)
    shape_known := hshape
    span_known := hspan
    invalid := by
      rw [← Option.not_isSome_iff_eq_none, ← Option.not_isSome_iff_eq_none, hshape, hspan]
      exact ⟨hinvalid, hinvalid⟩
    allocated := by
      rintro before s after rfl id hid
      obtain ⟨hid, hlt⟩ := index_of_getElem?_firstIds (by omega) hid
      exact lookup_of_step hid (by omega)
    stable := by
      rintro before after rfl id hid
      have hext := extends_run (empty.run before).2 after
      rw [run_append]
      exact ⟨hext.shape?_eq hid, hext.span?_eq (by rwa [inStep_run before])⟩
    listed := by
      have hlist := toList_eq_ok (a := (empty.run steps).2) (by omega)
      exact ⟨_, hlist, shape?_of_getElem?_toList (by omega) hlist⟩ }

theorem withCapacity_eq (shapeBytes : ℕ) (capacity : UInt64) :
    withCapacity shapeBytes capacity =
      if capacity.toNat * shapeBytes ≤ maxBytes ∧ capacity.toNat * spanBytes ≤ maxBytes then
        .ok empty
      else .error ⟨capacity⟩ := by
  unfold withCapacity reserve
  by_cases hshapes : capacity.toNat * shapeBytes ≤ maxBytes
  · by_cases hspans : capacity.toNat * spanBytes ≤ maxBytes
    · simp only [hshapes, hspans, and_self, if_true]
      rfl
    · simp only [hshapes, hspans, and_false, if_true, if_false]
      rfl
  · simp only [hshapes, false_and, if_false]
    rfl

/-- Every run from an empty arena that stops before the number for no expression is
reached returns a number for each step. The room that the arena was given cannot be seen;
an arena is given it unless it is more than an array can have. -/
theorem run_numbering (steps : List Step) (h : steps.length < UInt32.size - 1) :
    (∃ ids, (empty.run steps).1 = ids.map Except.ok ∧
      Numbering steps ids (empty.run steps).2) ∧
    ∀ (shapeBytes : ℕ) (capacity : UInt64),
      (∀ a, withCapacity shapeBytes capacity = .ok a → a.run steps = empty.run steps) ∧
      ((∃ a, withCapacity shapeBytes capacity = .ok a) ↔
        capacity.toNat * shapeBytes ≤ maxBytes ∧ capacity.toNat * spanBytes ≤ maxBytes) := by
  refine ⟨⟨_, outputs_run_of_lt h, numbering_run h⟩, ?_⟩
  intro shapeBytes capacity
  rw [withCapacity_eq]
  split_ifs with hroom
  · exact ⟨fun a ha => by rw [← Except.ok.inj ha], iff_of_true ⟨empty, rfl⟩ hroom⟩
  · exact ⟨nofun, iff_of_false nofun hroom⟩

/-- A comparison whose operands are itself and a node that is added after it. -/
theorem run_numbering_self :
    let steps : List Step := [.binary .eq ⟨0⟩ ⟨1⟩, .ident "x" ⟨9, 2⟩]
    steps.length < UInt32.size - 1 ∧
      (∃ ids, (empty.run steps).1 = ids.map Except.ok ∧
        Numbering steps ids (empty.run steps).2) ∧
      ∃ a, withCapacity 32 7 = .ok a ∧ a.run steps = empty.run steps := by
  intro steps
  have h : steps.length < UInt32.size - 1 := by decide
  obtain ⟨hrun, hcapacity⟩ := run_numbering steps h
  obtain ⟨a, ha⟩ := (hcapacity 32 7).2.mpr (by decide)
  exact ⟨h, hrun, a, ha, (hcapacity 32 7).1 a ha⟩

end AssertionLint.Arena
