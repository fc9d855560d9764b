import AssertionLint.Proofs.LinterResult

/-!
# Missing types hide findings and never cause one

A typing may leave open what another one answers. Whatever is known to be
floating-point under the first is so under the second, and the verdict about a
call asks for nothing else about types, so the flagged calls of the first are
among those of the second. As a finding says nothing about types, the findings
of the first are then a part of the findings of the second, and they stay so
when both are put in order and repetitions are dropped.
-/

namespace AssertionLint

/-- The second typing answers whatever the first one answers, and alike. -/
def Typing.ExtendedBy (o o' : Typing) : Prop := ∀ id, o id = none ∨ o id = o' id

/-! ## Verdicts -/

namespace FloatCompare

variable {a : Arena} {o o' : Typing}

theorem floating_of_extendedBy (h : o.ExtendedBy o') {id : ExprId}
    (hf : Context.Floating ⟨a, o⟩ id) : Context.Floating ⟨a, o'⟩ id := by
  obtain ⟨t, ht, hfloat⟩ := hf
  change o id = some t at ht
  rcases h id with hnone | hsame
  · rw [hnone] at ht
    cases ht
  · exact ⟨t, hsame.symm.trans ht, hfloat⟩

theorem comparesValues_of_extendedBy (h : o.ExtendedBy o') {args : List ExprId}
    (hc : ComparesValues ⟨a, o⟩ args) : ComparesValues ⟨a, o'⟩ args := by
  obtain ⟨expected, actual, rest, hargs, hf⟩ := hc
  exact ⟨expected, actual, rest, hargs,
    hf.imp (floating_of_extendedBy h) (floating_of_extendedBy h)⟩

theorem assertsComparison_of_extendedBy (h : o.ExtendedBy o') {args : List ExprId}
    {op : BinaryOp} (hc : AssertsComparison ⟨a, o⟩ args op) :
    AssertsComparison ⟨a, o'⟩ args op := by
  obtain ⟨arg, rest, left, right, hargs, hshape, hf⟩ := hc
  exact ⟨arg, rest, left, right, hargs, hshape,
    hf.imp (floating_of_extendedBy h) (floating_of_extendedBy h)⟩

theorem flagged_of_extendedBy (h : o.ExtendedBy o') {call : Call}
    (hf : Flagged ⟨a, o⟩ call) : Flagged ⟨a, o'⟩ call := by
  cases hf with
  | values known called compares =>
    exact .values known called (comparesValues_of_extendedBy h compares)
  | truth called asserts => exact .truth called (assertsComparison_of_extendedBy h asserts)
  | falsity called asserts => exact .falsity called (assertsComparison_of_extendedBy h asserts)

theorem check_of_extendedBy (h : o.ExtendedBy o') {call : Call} {f : Finding}
    (hf : (check ⟨a, o⟩ call).value = some f) : (check ⟨a, o'⟩ call).value = some f := by
  rw [check_value] at hf ⊢
  split_ifs at hf with hflagged
  rw [if_pos (flagged_of_extendedBy h hflagged), hf]

/-- Every way to be flagged needs a floating-point expression. -/
theorem Flagged.exists_floating {ctx : Context} {call : Call} (h : Flagged ctx call) :
    ∃ id, ctx.Floating id := by
  have either : ∀ left right, ctx.Floating left ∨ ctx.Floating right → ∃ id, ctx.Floating id := by
    rintro left right (hf | hf)
    · exact ⟨left, hf⟩
    · exact ⟨right, hf⟩
  cases h with
  | values known called compares =>
    obtain ⟨expected, actual, -, -, hf⟩ := compares
    exact either expected actual hf
  | truth called asserts | falsity called asserts =>
    obtain ⟨-, -, left, right, -, -, hf⟩ := asserts
    exact either left right hf

theorem not_flagged_of_untyped (a : Arena) (call : Call) :
    ¬Flagged ⟨a, fun _ => none⟩ call := by
  intro h
  obtain ⟨id, t, ht, -⟩ := h.exists_floating
  cases ht

end FloatCompare

/-! ## Results -/

theorem filterMap_sublist {α β : Type} {f g : α → Option β}
    (h : ∀ a b, f a = some b → g a = some b) (as : List α) :
    (as.filterMap f).Sublist (as.filterMap g) := by
  induction as with
  | nil => exact List.Sublist.slnil
  | cons a as ih =>
    cases hf : f a with
    | none =>
      rw [List.filterMap_cons_none hf, List.filterMap_cons]
      split
      · exact ih
      · exact ih.cons _
    | some b =>
      rw [List.filterMap_cons_some hf, List.filterMap_cons_some (h a b hf)]
      exact ih.cons_cons b

namespace Linter

theorem checkCall_sublist (l : Linter) {a : Arena} {o o' : Typing} (h : o.ExtendedBy o')
    (call : Call) :
    (l.checkCall ⟨a, o⟩ call).value.Sublist (l.checkCall ⟨a, o'⟩ call).value := by
  rw [checkCall_value, checkCall_value]
  apply filterMap_sublist
  intro r f hf
  cases r
  exact FloatCompare.check_of_extendedBy h hf

theorem found_sublist (l : Linter) {a : Arena} {o o' : Typing} (h : o.ExtendedBy o')
    (calls : List Call) : (l.found ⟨a, o⟩ calls).Sublist (l.found ⟨a, o'⟩ calls) := by
  induction calls with
  | nil => exact List.Sublist.slnil
  | cons call calls ih => exact (l.checkCall_sublist h call).append ih

theorem found_of_untyped (l : Linter) (a : Arena) (calls : List Call) :
    l.found ⟨a, fun _ => none⟩ calls = [] := by
  apply List.flatMap_eq_nil_iff.mpr
  intro call _
  rw [checkCall_value]
  apply List.filterMap_eq_nil_iff.mpr
  intro r _
  cases r
  rw [Rule.check, FloatCompare.check_value, if_neg (FloatCompare.not_flagged_of_untyped a call)]

end Linter

namespace Queue

open Finding

theorem arrange_nil (c : Policy) : arrange c [] = [] := by
  simp [arrange, sort, cut, List.eraseRepsBy]

/-- Without a limit, fewer findings give a part of the result, provided a key says
all about a finding. -/
theorem arrange_sublist {c : Policy} (hlimit : c.limit = 0) {fs gs : List Finding}
    (h : fs.Sublist gs) (hkey : ∀ f ∈ gs, ∀ g ∈ gs, f.key = g.key → f = g) :
    (arrange c fs).Sublist (arrange c gs) := by
  rw [(arrange_delivery c fs).unlimited hlimit, (arrange_delivery c gs).unlimited hlimit]
  apply sublist_of_withKey (unlimited_increasing c fs) (unlimited_increasing c gs)
  intro k
  have hclass : (withKey k fs).Sublist (withKey k gs) := h.filter _
  rw [withKey_unlimited, withKey_unlimited]
  split_ifs
  · cases hfs : withKey k fs with
    | nil => exact List.nil_sublist _
    | cons f rest =>
      obtain ⟨hf, hfk⟩ := mem_withKey.mp (hclass.subset (hfs ▸ List.mem_cons_self))
      cases hgs : withKey k gs with
      | nil =>
        rw [hfs, hgs] at hclass
        exact absurd (List.sublist_nil.mp hclass) (List.cons_ne_nil _ _)
      | cons g rest' =>
        obtain ⟨hg, hgk⟩ := mem_withKey.mp (hgs ▸ List.mem_cons_self : g ∈ withKey k gs)
        rw [hkey f hf g hg (hfk.trans hgk.symm)]
        exact List.Sublist.refl _
  · exact hclass

end Queue

namespace Linter

/-- The verdicts and the result of a linter under a typing and one that extends it.
With a limit the result need not be a part, as an earlier finding may push out a
later one; with no types at all there is no finding. -/
theorem run_sublist_of_extendedBy (s : Selection) (h : s.validate = .ok ()) :
    ∃ l, ofSelection s = .ok l ∧ ∀ (a : Arena) (calls : List Call),
      (∀ o o' : Typing, o.ExtendedBy o' →
        (∀ (call : Call) (f : Finding), (FloatCompare.check ⟨a, o⟩ call).value = some f →
          (FloatCompare.check ⟨a, o'⟩ call).value = some f) ∧
        ∀ c : Queue.Policy, c.limit = 0 →
          ((l.value.withPolicy c).run ⟨a, o⟩ calls).value.Sublist
            ((l.value.withPolicy c).run ⟨a, o'⟩ calls).value) ∧
      ∀ c : Queue.Policy, ((l.value.withPolicy c).run ⟨a, fun _ => none⟩ calls).value = [] := by
  obtain ⟨l, hl, -, -⟩ := ofSelection_of_validate h
  refine ⟨l, hl, ?_⟩
  intro a calls
  constructor
  · intro o o' hext
    refine ⟨fun call f => FloatCompare.check_of_extendedBy hext, ?_⟩
    intro c hlimit
    rw [run_value, run_value]
    apply Queue.arrange_sublist hlimit (found_sublist _ hext calls)
    intro f hf g hg
    exact eq_of_key_of_mem_found hf hg
  · intro c
    rw [run_value, found_of_untyped, Queue.arrange_nil]

/-- A comparison between operands of which only one has a type, and a call whose
arguments have one under the larger typing alone. -/
theorem run_sublist_of_extendedBy_partial :
    let a : Arena := ⟨#[.binary .eq ⟨8⟩ ⟨9⟩], #[.unknown]⟩
    let asserted : Call := ⟨⟨40, 60⟩, ⟨"Truef", "True", false⟩, "require", [⟨0⟩]⟩
    let compared : Call := .ofName ⟨10, 30⟩ "Equalf" "assert" [⟨5⟩, ⟨6⟩, ⟨7⟩]
    let o : Typing := fun id => if id = ⟨9⟩ then some (.named "Celsius" (.basic .float64)) else none
    let o' : Typing := fun id => if id = ⟨6⟩ then some (.basic .float32) else o id
    let f : Finding := ⟨"float-compare", "use require.InEpsilon (or InDelta)", ⟨40, 60⟩, []⟩
    let c : Queue.Policy := { limit := 0, dropRepeats := true }
    (default : Selection).validate = .ok () ∧ o.ExtendedBy o' ∧ c.limit = 0 ∧
      (FloatCompare.check ⟨a, o⟩ asserted).value = some f ∧
      (FloatCompare.check ⟨a, o'⟩ asserted).value = some f ∧
      ∃ l, ofSelection default = .ok l ∧
        ((l.value.withPolicy c).run ⟨a, o⟩ [asserted, compared]).value.Sublist
          ((l.value.withPolicy c).run ⟨a, o'⟩ [asserted, compared]).value := by
  intro a asserted compared o o' f c
  have hvalid : (default : Selection).validate = .ok () := by decide
  have hext : o.ExtendedBy o' := by
    intro id
    by_cases h : id = ⟨6⟩
    · exact .inl (by simp [o, h])
    · exact .inr (by simp [o', h])
  have hflagged : (FloatCompare.check ⟨a, o⟩ asserted).value = some f := by decide
  obtain ⟨l, hl, hrun⟩ := run_sublist_of_extendedBy default hvalid
  obtain ⟨hcheck, hsub⟩ := (hrun a [asserted, compared]).1 o o' hext
  exact ⟨hvalid, hext, rfl, hflagged, hcheck asserted f hflagged, l, hl, hsub c rfl⟩

end Linter

end AssertionLint
