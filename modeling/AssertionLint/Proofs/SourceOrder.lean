import AssertionLint.Finding.Queue
import AssertionLint.Proofs.ByteOrder
import Mathlib.Data.List.Destutter

/-!
# What sorting and dropping repetitions do to a list of findings

A list is cut into classes by key. Sorting puts the classes in increasing order
and keeps each as it is; these two facts determine the result. Repetitions are
only dropped next to each other, which after sorting leaves the first member of
every class.
-/

namespace AssertionLint.Finding

/-- The findings with a given key, in the order of the list. -/
def withKey (k : Key) (fs : List Finding) : List Finding := fs.filter fun f => f.key = k

theorem mem_withKey {k : Key} {fs : List Finding} {f : Finding} :
    f ∈ withKey k fs ↔ f ∈ fs ∧ f.key = k := by
  simp [withKey]

theorem withKey_cons_self (f : Finding) (fs : List Finding) :
    withKey f.key (f :: fs) = f :: withKey f.key fs := by
  simp [withKey]

theorem withKey_cons_of_ne {k : Key} {f : Finding} (h : f.key ≠ k) (fs : List Finding) :
    withKey k (f :: fs) = withKey k fs := by
  simp [withKey, h]

/-- In increasing order of the keys, equal keys allowed. -/
def Increasing (fs : List Finding) : Prop := fs.Pairwise fun f g => f.key ≤ g.key

theorem Increasing.head_le {f g : Finding} {fs : List Finding} (h : Increasing (f :: fs))
    (hg : g ∈ f :: fs) : f.key ≤ g.key := by
  rcases List.mem_cons.mp hg with rfl | hg
  · exact le_rfl
  · exact (List.pairwise_cons.mp h).1 g hg

theorem Increasing.withKey_eq_nil {k : Key} {f : Finding} {fs : List Finding}
    (h : Increasing (f :: fs)) (hk : k < f.key) : withKey k (f :: fs) = [] := by
  apply List.filter_eq_nil_iff.mpr
  intro g hg
  simpa using (hk.trans_le (h.head_le hg)).ne'

/-- `out` holds the findings of `fs` in increasing order, those of one key in the
order in which they stand in `fs`. -/
structure SortedFrom (fs out : List Finding) : Prop where
  increasing : Increasing out
  stable : ∀ k, withKey k out = withKey k fs

theorem mem_iff_of_withKey {fs gs : List Finding} (h : ∀ k, withKey k fs = withKey k gs)
    (f : Finding) : f ∈ fs ↔ f ∈ gs := by
  have hm := congrArg (fun l => f ∈ l) (h f.key)
  simpa [mem_withKey] using hm

/-- An increasing list is determined by its classes. -/
theorem eq_of_withKey {fs gs : List Finding} (hf : Increasing fs) (hg : Increasing gs)
    (h : ∀ k, withKey k fs = withKey k gs) : fs = gs := by
  induction fs generalizing gs with
  | nil =>
    refine (List.eq_nil_iff_forall_not_mem.mpr fun g hm => ?_).symm
    exact List.not_mem_nil ((mem_iff_of_withKey h g).mpr hm)
  | cons f fs ih =>
    cases gs with
    | nil => exact absurd ((mem_iff_of_withKey h f).mp (by simp)) List.not_mem_nil
    | cons g gs =>
      -- Each head is least in its own list and occurs in the other one.
      have hkey : g.key = f.key := by
        apply le_antisymm
        · exact hg.head_le ((mem_iff_of_withKey h f).mp (by simp))
        · exact hf.head_le ((mem_iff_of_withKey h g).mpr (by simp))
      have hclass := h f.key
      rw [withKey_cons_self, ← hkey, withKey_cons_self] at hclass
      obtain ⟨rfl, htail⟩ := List.cons.inj hclass
      congr 1
      apply ih hf.of_cons hg.of_cons
      intro k
      by_cases hk : f.key = k
      · rw [← hk]
        exact htail
      · have hrest := h k
        rwa [withKey_cons_of_ne hk, withKey_cons_of_ne hk] at hrest

/-- An increasing list is part of another if its classes are. -/
theorem sublist_of_withKey {fs gs : List Finding} (hf : Increasing fs) (hg : Increasing gs)
    (h : ∀ k, (withKey k fs).Sublist (withKey k gs)) : fs.Sublist gs := by
  induction gs generalizing fs with
  | nil =>
    refine List.sublist_nil.mpr (List.eq_nil_iff_forall_not_mem.mpr fun f hm => ?_)
    exact List.not_mem_nil ((h f.key).subset (mem_withKey.mpr ⟨hm, rfl⟩))
  | cons g gs ih =>
    -- What stands in the tail of the larger list does not need its head.
    have hskip : (withKey g.key fs).Sublist (withKey g.key gs) → fs.Sublist (g :: gs) := by
      intro hclass
      refine (ih hf hg.of_cons fun k => ?_).cons g
      by_cases hk : g.key = k
      · rwa [← hk]
      · simpa [withKey_cons_of_ne hk] using h k
    cases fs with
    | nil => exact List.nil_sublist _
    | cons f fs =>
      rcases lt_trichotomy f.key g.key with hfg | hfg | hfg
      · have hclass := h f.key
        rw [hg.withKey_eq_nil hfg, withKey_cons_self] at hclass
        exact absurd (List.sublist_nil.mp hclass) (List.cons_ne_nil _ _)
      · have hclass := h g.key
        rw [withKey_cons_self, ← hfg, withKey_cons_self, List.cons_sublist_cons'] at hclass
        rcases hclass with hclass | ⟨rfl, hclass⟩
        · apply hskip
          rwa [← hfg, withKey_cons_self]
        · refine (ih hf.of_cons hg.of_cons fun k => ?_).cons_cons f
          by_cases hk : f.key = k
          · rwa [← hk]
          · simpa [withKey_cons_of_ne hk] using h k
      · apply hskip
        rw [hf.withKey_eq_nil hfg]
        exact List.nil_sublist _

theorem SortedFrom.perm {fs out : List Finding} (h : SortedFrom fs out) : out.Perm fs := by
  rw [List.perm_iff_count]
  intro f
  have hc := congrArg (List.count f) (h.stable f.key)
  rwa [withKey, withKey, List.count_filter (by simp), List.count_filter (by simp)] at hc

end AssertionLint.Finding

namespace AssertionLint.Queue

open Finding

theorem order_trans (f g h : Finding) :
    (order f g).isLE = true → (order g h).isLE = true → (order f h).isLE = true := by
  rw [isLE_order_iff, isLE_order_iff, isLE_order_iff]
  exact le_trans

theorem order_total (f g : Finding) : ((order f g).isLE || (order g f).isLE) = true := by
  rw [Bool.or_eq_true, isLE_order_iff, isLE_order_iff]
  exact le_total _ _

theorem sort_increasing (fs : List Finding) : Increasing (sort fs) :=
  (List.pairwise_mergeSort order_trans order_total fs).imp fun h => isLE_order_iff.mp h

theorem withKey_sort (k : Key) (fs : List Finding) : withKey k (sort fs) = withKey k fs := by
  have hclass : (withKey k fs).Pairwise fun f g => (order f g).isLE = true := by
    apply List.pairwise_of_forall_mem_list
    intro f hf g hg
    rw [isLE_order_iff, (mem_withKey.mp hf).2, (mem_withKey.mp hg).2]
  have hsub : (withKey k fs).Sublist (sort fs) :=
    List.sublist_mergeSort order_trans order_total hclass List.filter_sublist
  have hkept : (withKey k fs).Sublist (withKey k (sort fs)) := by
    simpa [withKey] using hsub.filter fun f => f.key = k
  have hlen : (withKey k fs).length = (withKey k (sort fs)).length :=
    ((List.mergeSort_perm fs _).filter _).length_eq.symm
  exact (hkept.eq_of_length hlen).symm

theorem sort_sortedFrom (fs : List Finding) : SortedFrom fs (sort fs) :=
  ⟨sort_increasing fs, fun k => withKey_sort k fs⟩

/-- Sorting is the only way to meet its description. -/
theorem sortedFrom_iff {fs out : List Finding} : SortedFrom fs out ↔ out = sort fs := by
  constructor
  · intro h
    apply eq_of_withKey h.increasing (sort_increasing fs)
    intro k
    rw [h.stable, withKey_sort]
  · rintro rfl
    exact sort_sortedFrom fs

/-- If a key says all about a finding, the order of arrival plays no part. -/
theorem sort_eq_of_perm {fs gs : List Finding} (hp : fs.Perm gs)
    (hkey : ∀ f ∈ fs, ∀ g ∈ fs, f.key = g.key → f = g) : sort fs = sort gs := by
  have hfs : (sort fs).Perm fs := List.mergeSort_perm fs _
  have hgs : (sort gs).Perm gs := List.mergeSort_perm gs _
  apply List.Perm.eq_of_pairwise _ (sort_increasing fs) (sort_increasing gs)
    (hfs.trans (hp.trans hgs.symm))
  intro f g hf hg hfg hgf
  have hf := hfs.mem_iff.mp hf
  have hg := hp.mem_iff.mpr (hgs.mem_iff.mp hg)
  exact hkey f hf g hg (le_antisymm hfg hgf)

/-! ## Dropping repetitions -/

theorem eraseRepsBy_loop {α : Type} (r : α → α → Bool) (a : α) (as acc : List α) :
    List.eraseRepsBy.loop r a as acc =
      acc.reverse ++ as.destutter' (fun x y => r x y = false) a := by
  induction as generalizing a acc with
  | nil => simp [List.eraseRepsBy.loop]
  | cons b bs ih =>
    cases h : r a b
    · simp [List.eraseRepsBy.loop, h, ih]
    · simp [List.eraseRepsBy.loop, h, ih]

theorem eraseRepsBy_cons (f : Finding) (fs : List Finding) :
    (f :: fs).eraseRepsBy sameReport = fs.destutter' (fun x y => x.key ≠ y.key) f := by
  rw [List.eraseRepsBy, eraseRepsBy_loop, List.reverse_nil, List.nil_append]
  congr 1
  funext x y
  rw [← Bool.not_eq_true, sameReport_eq_true]

theorem eraseRepsBy_sublist (fs : List Finding) : (fs.eraseRepsBy sameReport).Sublist fs := by
  cases fs with
  | nil => exact List.Sublist.slnil
  | cons f fs =>
    rw [eraseRepsBy_cons]
    exact fs.destutter'_sublist (fun x y => x.key ≠ y.key) f

/-- Of an increasing list the first finding of each class is left. -/
theorem withKey_eraseRepsBy (k : Key) {fs : List Finding} (h : Increasing fs) :
    withKey k (fs.eraseRepsBy sameReport) = (withKey k fs).take 1 := by
  cases fs with
  | nil => rfl
  | cons f fs =>
    rw [eraseRepsBy_cons]
    induction fs generalizing f with
    | nil =>
      by_cases hk : f.key = k <;> simp [withKey, hk]
    | cons g fs ih =>
      have htail : Increasing (g :: fs) := h.of_cons
      by_cases hfg : f.key = g.key
      · have hskip : Increasing (f :: fs) := h.sublist ((List.sublist_cons_self g fs).cons_cons f)
        rw [List.destutter'_cons_neg _ (not_not.mpr hfg), ih f hskip]
        by_cases hk : f.key = k <;> simp [withKey, hk, ← hfg]
      · rw [List.destutter'_cons_pos _ hfg]
        by_cases hk : f.key = k
        · -- All later keys are larger, so nothing more of this class follows.
          have hrest : withKey k (g :: fs) = [] := by
            apply List.filter_eq_nil_iff.mpr
            intro x hx
            have hlt : f.key < g.key := lt_of_le_of_ne (h.head_le (by simp)) hfg
            simpa [← hk] using (hlt.trans_le (htail.head_le hx)).ne'
          subst hk
          rw [withKey_cons_self, withKey_cons_self, ih g htail, hrest]
          rfl
        · rw [withKey_cons_of_ne hk, withKey_cons_of_ne hk, ih g htail]

end AssertionLint.Queue
