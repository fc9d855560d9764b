import AssertionLint.Proofs.Resolution

/-!
# Which rules a valid selection runs

All names in a valid selection are names of rules, and if it starts from nothing
it names at least one. As there is a single rule, that rule runs exactly if the
selection disables nothing.
-/

namespace AssertionLint.Selection

theorem name_eq_of_known {n : String} (h : ∃ r : Rule, r.name = n) (r : Rule) : r.name = n := by
  obtain ⟨r', rfl⟩ := h
  cases r
  cases r'
  rfl

theorem asks_iff_of_validate {s : Selection} (h : s.validate = .ok ()) (r : Rule) :
    s.Asks r ↔ s.disable = [] := by
  obtain ⟨hflags, hknown, -⟩ := validate_eq_ok_iff_forall_mem.mp h
  constructor
  · rintro ⟨-, hnot⟩
    rw [List.eq_nil_iff_forall_not_mem]
    intro n hn
    exact hnot (name_eq_of_known (hknown n (.inr hn)) r ▸ hn)
  · intro hnil
    refine ⟨?_, by simp [hnil]⟩
    by_cases hall : s.disableAll = true
    · have hne : s.enable ≠ [] := fun he => hflags.something ⟨hall, he⟩
      obtain ⟨n, hn⟩ := List.exists_mem_of_ne_nil _ hne
      exact .inr (.inr (name_eq_of_known (hknown n (.inl hn)) r ▸ hn))
    · cases r
      exact .inr (.inl ⟨Bool.not_eq_true _ ▸ hall, rfl⟩)

theorem enabled_of_validate {s : Selection} (h : s.validate = .ok ()) :
    s.enabled = .ok (if s.disable = [] then [.floatCompare] else []) := by
  obtain ⟨rules, hrules, hbefore, hmem⟩ := exists_enabled h
  rw [hrules]
  congr 1
  apply Rule.eq_of_pairwise hbefore
  · split_ifs <;> simp
  · intro r
    rw [hmem, asks_iff_of_validate h]
    cases r
    split_ifs with hnil <;> simp [hnil]

end AssertionLint.Selection
