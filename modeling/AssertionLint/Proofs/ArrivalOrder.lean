import AssertionLint.Proofs.ChunkedCollection

/-!
# The order of arrival

What a queue hands out depends on the order of arrival only inside a class of equal
keys, where it decides which fixes come first and which are left out. The keys that
are handed out are an increasing list, and how often each occurs in it depends only
on the size of its class; so permuting the arrivals leaves them as they are.
-/

namespace AssertionLint.Finding

/-- What a finding says and where. -/
def report (f : Finding) : Span × String × String := (f.span, f.rule, f.message)

theorem report_eq_iff {f g : Finding} : f.report = g.report ↔ f.key = g.key := by
  rw [key_eq_iff, report, report, Prod.mk.injEq, Prod.mk.injEq]

theorem map_report_eq_iff {fs gs : List Finding} :
    fs.map report = gs.map report ↔ fs.map key = gs.map key := by
  simp only [← List.forall₂_eq_eq_eq, List.forall₂_map_left_iff, List.forall₂_map_right_iff,
    report_eq_iff]

end AssertionLint.Finding

namespace AssertionLint.Queue

open Finding

theorem perm_map_key_unlimited (c : Policy) {p q : List Finding} (hp : p.Perm q) :
    ((arrange c.unlimited p).map key).Perm ((arrange c.unlimited q).map key) := by
  rw [List.perm_iff_count]
  intro k
  have hclass : (withKey k p).length = (withKey k q).length := (hp.filter _).length_eq
  rw [count_map_key, count_map_key, withKey_unlimited_eq_kept, withKey_unlimited_eq_kept]
  exact le_antisymm (length_kept_le c hclass.le) (length_kept_le c hclass.ge)

theorem map_key_unlimited_of_perm (c : Policy) {p q : List Finding} (hp : p.Perm q) :
    (arrange c.unlimited p).map key = (arrange c.unlimited q).map key :=
  (perm_map_key_unlimited c hp).eq_of_pairwise (fun _ _ _ _ => le_antisymm)
    (List.pairwise_map.mpr (unlimited_increasing c p))
    (List.pairwise_map.mpr (unlimited_increasing c q))

theorem map_cut {α : Type} (f : Finding → α) (limit : ℕ) (fs : List Finding) :
    (cut limit fs).map f = if limit = 0 then fs.map f else (fs.map f).take limit := by
  unfold cut
  split_ifs <;> simp

theorem map_key_arrange_of_perm (c : Policy) {p q : List Finding} (hp : p.Perm q) :
    (arrange c p).map key = (arrange c q).map key := by
  rw [arrange_eq_cut c p, arrange_eq_cut c q, map_cut, map_cut, map_key_unlimited_of_perm c hp]

/-- Two queues that wait with the same findings, in whatever order they came, hand out
equally many, which say the same in the same order; they are the same findings if what
waits differs in more than its fixes. -/
theorem flush_of_perm (c : Policy) (q q' : Queue) (hq : q.policy = c) (hq' : q'.policy = c)
    (hp : q.pending.toList.Perm q'.pending.toList) :
    q.flush.1.length = q'.flush.1.length ∧
      q.flush.1.map report = q'.flush.1.map report ∧
      ((∀ f ∈ q.pending, ∀ g ∈ q.pending, f.report = g.report → f = g) →
        q.flush.1 = q'.flush.1) := by
  simp only [flush, hq, hq']
  have hkeys := map_key_arrange_of_perm c hp
  refine ⟨?_, map_report_eq_iff.mpr hkeys, ?_⟩
  · simpa using congrArg List.length hkeys
  · intro hsame
    apply arrange_eq_of_perm c hp
    intro f hf g hg hkey
    exact hsame f (Array.mem_toList_iff.mp hf) g (Array.mem_toList_iff.mp hg)
      (report_eq_iff.mpr hkey)

/-- Three findings of one span, two of which differ in their fixes alone, under a limit
that leaves out one of these; and two that are the same in their place. -/
theorem flush_of_perm_ties :
    let f : Finding := ⟨"float-compare", "m", ⟨7, 3⟩, []⟩
    let g : Finding := ⟨"float-compare", "m", ⟨7, 3⟩, [⟨"x", []⟩]⟩
    let h : Finding := ⟨"float-compare", "l", ⟨7, 3⟩, []⟩
    let c : Policy := { limit := 2 }
    let ties : Queue := ⟨c, #[f, g, h]⟩
    let ties' : Queue := ⟨c, #[g, h, f]⟩
    let twice : Queue := ⟨c, #[f, f, h]⟩
    let twice' : Queue := ⟨c, #[f, h, f]⟩
    ties.policy = c ∧ ties'.policy = c ∧ ties.pending.toList.Perm ties'.pending.toList ∧
      ties.flush.1.map report = ties'.flush.1.map report ∧
      twice.policy = c ∧ twice'.policy = c ∧
      twice.pending.toList.Perm twice'.pending.toList ∧
      (∀ x ∈ twice.pending, ∀ y ∈ twice.pending, x.report = y.report → x = y) ∧
      twice.flush.1 = twice'.flush.1 := by
  intro f g h c ties ties' twice twice'
  have hties : ties.pending.toList.Perm ties'.pending.toList := by decide
  have htwice : twice.pending.toList.Perm twice'.pending.toList := by decide
  have hsame : ∀ x ∈ twice.pending, ∀ y ∈ twice.pending, x.report = y.report → x = y := by
    decide
  exact ⟨rfl, rfl, hties, (flush_of_perm c ties ties' rfl rfl hties).2.1, rfl, rfl, htwice, hsame,
    (flush_of_perm c twice twice' rfl rfl htwice).2.2 hsame⟩

end AssertionLint.Queue
