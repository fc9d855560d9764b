import AssertionLint.Linter
import Mathlib.Data.List.Basic
import Mathlib.Tactic

/-!
# How selections are resolved

Each reason to reject a selection is described by itself, and what is given is the
first of those that apply. That a selection is in order depends only on which names
it mentions, and so does the list of the rules it runs, which is the only increasing
list of the rules that the selection asks for. The order of the names and their
repetitions are seen by rejections alone.
-/

namespace AssertionLint

namespace Rule

theorem name_injective : Function.Injective name := by
  intro r r' _
  cases r
  cases r'
  rfl

theorem ofName?_eq_some_iff {n : String} {r : Rule} : ofName? n = some r ↔ r.name = n := by
  constructor
  · intro h
    exact eq_of_beq (List.find?_some (p := fun r : Rule => r.name == n) h)
  · rintro rfl
    have hfound : (ofName? r.name).isSome = true := by
      rw [ofName?, List.find?_isSome]
      exact ⟨r, mem_all r, by simp⟩
    obtain ⟨r', hr'⟩ := Option.isSome_iff_exists.mp hfound
    have hname := List.find?_some (p := fun r' : Rule => r'.name == r.name) hr'
    rw [hr', name_injective (eq_of_beq hname)]

theorem ofName?_eq_none_iff {n : String} : ofName? n = none ↔ ∀ r : Rule, r.name ≠ n := by
  rw [Option.eq_none_iff_forall_ne_some]
  exact forall_congr' fun r => ofName?_eq_some_iff.not

/-- The order in which rules are declared. -/
def Before (r r' : Rule) : Prop := r.ctorIdx < r'.ctorIdx

instance : DecidableRel Before :=
  fun r r' => inferInstanceAs (Decidable (r.ctorIdx < r'.ctorIdx))

theorem all_pairwise : all.Pairwise Before := by decide

theorem Before.ne {r r' : Rule} (h : Before r r') : r ≠ r' := by
  rintro rfl
  exact Nat.lt_irrefl _ h

theorem Before.asymm {r r' : Rule} (h : Before r r') : ¬ Before r' r := Nat.lt_asymm h

/-- A list of rules in the order of their declaration is determined by its members. -/
theorem eq_of_pairwise {rules rules' : List Rule} (h : rules.Pairwise Before)
    (h' : rules'.Pairwise Before) (hmem : ∀ r, r ∈ rules ↔ r ∈ rules') : rules = rules' := by
  have hperm : rules.Perm rules' :=
    (List.perm_ext_iff_of_nodup (h.imp Before.ne) (h'.imp Before.ne)).mpr hmem
  exact hperm.eq_of_pairwise (fun r r' _ _ hrr' hr'r => absurd hr'r hrr'.asymm) h h'

end Rule

namespace Selection

/-! ## Reasons -/

/-- The first member of a list that has a property. -/
def IsFirst (p : String → Prop) (names : List String) (n : String) : Prop :=
  p n ∧ ∃ before after, names = before ++ n :: after ∧ ∀ m ∈ before, ¬ p m

theorem find?_eq_some_iff {p : String → Bool} {names : List String} {n : String} :
    names.find? p = some n ↔ IsFirst (p · = true) names n := by
  simp [List.find?_eq_some_iff_append, IsFirst]

theorem exists_isFirst_iff {p : String → Prop} {names : List String} :
    (∃ n, IsFirst p names n) ↔ ∃ n ∈ names, p n := by
  classical
  constructor
  · rintro ⟨n, hn, before, after, rfl, -⟩
    exact ⟨n, by simp, hn⟩
  · rintro ⟨n, hmem, hn⟩
    have hfound : (names.find? fun m => decide (p m)).isSome = true := by
      rw [List.find?_isSome]
      exact ⟨n, hmem, by simpa using hn⟩
    obtain ⟨m, hm⟩ := Option.isSome_iff_exists.mp hfound
    exact ⟨m, by simpa using find?_eq_some_iff.mp hm⟩

/-- Whether a reason to reject a selection applies, whatever else does. -/
def Rejection.AppliesTo (s : Selection) : Rejection → Prop
  | enableAllWithDisableAll => s.enableAll = true ∧ s.disableAll = true
  | enableAllWithEnable => s.enableAll = true ∧ s.enable ≠ []
  | disableAllWithDisable => s.disableAll = true ∧ s.disable ≠ []
  | nothingEnabled => s.disableAll = true ∧ s.enable = []
  | unknownRule n => IsFirst (fun m => ∀ r : Rule, r.name ≠ m) (s.enable ++ s.disable) n
  | enabledAndDisabled n => IsFirst (· ∈ s.disable) s.enable n

theorem Rejection.appliesTo_unknownRule {s : Selection} {n : String} :
    (unknownRule n).AppliesTo s ↔
      IsFirst (fun m => ∀ r : Rule, r.name ≠ m) (s.enable ++ s.disable) n := Iff.rfl

theorem Rejection.appliesTo_enabledAndDisabled {s : Selection} {n : String} :
    (enabledAndDisabled n).AppliesTo s ↔ IsFirst (· ∈ s.disable) s.enable n := Iff.rfl

/-- The place of a reason in the order in which they are looked for. -/
def Rejection.rank : Rejection → ℕ
  | enableAllWithDisableAll => 0
  | enableAllWithEnable => 1
  | disableAllWithDisable => 2
  | nothingEnabled => 3
  | unknownRule _ => 4
  | enabledAndDisabled _ => 5

/-- A reason that applies, and before which no other does. -/
def Rejection.IsFirstFor (s : Selection) (r : Rejection) : Prop :=
  r.AppliesTo s ∧ ∀ r' : Rejection, r'.AppliesTo s → r.rank ≤ r'.rank

theorem IsFirst.eq {p : String → Prop} {names : List String} {n m : String}
    (hn : IsFirst p names n) (hm : IsFirst p names m) : n = m := by
  classical
  have hn' : names.find? (fun x => decide (p x)) = some n :=
    find?_eq_some_iff.mpr (by simpa using hn)
  have hm' : names.find? (fun x => decide (p x)) = some m :=
    find?_eq_some_iff.mpr (by simpa using hm)
  exact Option.some.inj (hn'.symm.trans hm')

/-- Of each kind of reason at most one applies. -/
theorem Rejection.AppliesTo.eq_of_rank {s : Selection} {r r' : Rejection} (h : r.AppliesTo s)
    (h' : r'.AppliesTo s) (hrank : r.rank = r'.rank) : r = r' := by
  cases r with
  | unknownRule n =>
    cases r' with
    | unknownRule m =>
      exact congrArg unknownRule
        ((appliesTo_unknownRule.mp h).eq (appliesTo_unknownRule.mp h'))
    | _ => cases hrank
  | enabledAndDisabled n =>
    cases r' with
    | enabledAndDisabled m =>
      exact congrArg enabledAndDisabled
        ((appliesTo_enabledAndDisabled.mp h).eq (appliesTo_enabledAndDisabled.mp h'))
    | _ => cases hrank
  | _ => cases r' <;> first | rfl | cases hrank

theorem Rejection.IsFirstFor.eq {s : Selection} {r r' : Rejection} (h : r.IsFirstFor s)
    (h' : r'.IsFirstFor s) : r = r' :=
  h.1.eq_of_rank h'.1 (le_antisymm (h.2 r' h'.1) (h'.2 r h.1))

/-! ## Rejections -/

section Conditions

variable {s : Selection}

theorem both_iff : (s.enableAll && s.disableAll) = true ↔
    Rejection.enableAllWithDisableAll.AppliesTo s := by
  simp [Rejection.AppliesTo]

theorem enable_iff : (s.enableAll && !s.enable.isEmpty) = true ↔
    Rejection.enableAllWithEnable.AppliesTo s := by
  simp [Rejection.AppliesTo]

theorem disable_iff : (s.disableAll && !s.disable.isEmpty) = true ↔
    Rejection.disableAllWithDisable.AppliesTo s := by
  simp [Rejection.AppliesTo]

theorem nothing_iff : (s.disableAll && s.enable.isEmpty) = true ↔
    Rejection.nothingEnabled.AppliesTo s := by
  simp [Rejection.AppliesTo]

theorem unknown_iff {n : String} :
    ((s.enable ++ s.disable).find? fun n => (Rule.ofName? n).isNone) = some n ↔
      (Rejection.unknownRule n).AppliesTo s := by
  simp only [find?_eq_some_iff, Option.isNone_iff_eq_none, Rule.ofName?_eq_none_iff,
    Rejection.AppliesTo]

theorem contradictory_iff {n : String} :
    (s.enable.find? fun n => s.disable.contains n) = some n ↔
      (Rejection.enabledAndDisabled n).AppliesTo s := by
  simp only [find?_eq_some_iff, List.contains_iff_mem, Rejection.AppliesTo]

end Conditions

/-- What is looked at before the names. -/
structure FlagsInOrder (s : Selection) : Prop where
  flags : ¬ Rejection.enableAllWithDisableAll.AppliesTo s
  enable : ¬ Rejection.enableAllWithEnable.AppliesTo s
  disable : ¬ Rejection.disableAllWithDisable.AppliesTo s
  something : ¬ Rejection.nothingEnabled.AppliesTo s

theorem FlagsInOrder.rank_ge {s : Selection} (h : s.FlagsInOrder) {r : Rejection}
    (hr : r.AppliesTo s) : 4 ≤ r.rank := by
  cases r with
  | enableAllWithDisableAll => exact absurd hr h.flags
  | enableAllWithEnable => exact absurd hr h.enable
  | disableAllWithDisable => exact absurd hr h.disable
  | nothingEnabled => exact absurd hr h.something
  | unknownRule n => exact le_rfl
  | enabledAndDisabled n => exact Nat.le_succ 4

/-- Among the names it is the unknown ones that are looked for first. -/
theorem isFirstFor_of_badName? {s : Selection} {r : Rejection} (hflags : s.FlagsInOrder)
    (h : s.badName? = some r) : r.IsFirstFor s := by
  unfold badName? at h
  split at h
  · rename_i n hfind
    cases h
    exact ⟨unknown_iff.mp hfind, fun r' hr' => hflags.rank_ge hr'⟩
  · rename_i hknown
    obtain ⟨n, hfind, rfl⟩ := Option.map_eq_some_iff.mp h
    refine ⟨contradictory_iff.mp hfind, fun r' hr' => ?_⟩
    cases r' with
    | unknownRule m =>
      rw [unknown_iff.mpr hr'] at hknown
      cases hknown
    | enabledAndDisabled m => exact le_rfl
    | _ => exact absurd (hflags.rank_ge hr') (by decide)

/-- The reason that is given is the first one that applies. -/
theorem isFirstFor_of_rejection? {s : Selection} {r : Rejection} (h : s.rejection? = some r) :
    r.IsFirstFor s := by
  unfold rejection? at h
  by_cases hboth : Rejection.enableAllWithDisableAll.AppliesTo s
  · rw [if_pos (both_iff.mpr hboth)] at h
    cases h
    exact ⟨hboth, fun r' _ => Nat.zero_le _⟩
  rw [if_neg (both_iff.not.mpr hboth)] at h
  by_cases henable : Rejection.enableAllWithEnable.AppliesTo s
  · rw [if_pos (enable_iff.mpr henable)] at h
    cases h
    refine ⟨henable, fun r' hr' => ?_⟩
    cases r' <;> first | contradiction | simp [Rejection.rank]
  rw [if_neg (enable_iff.not.mpr henable)] at h
  by_cases hdisable : Rejection.disableAllWithDisable.AppliesTo s
  · rw [if_pos (disable_iff.mpr hdisable)] at h
    cases h
    refine ⟨hdisable, fun r' hr' => ?_⟩
    cases r' <;> first | contradiction | simp [Rejection.rank]
  rw [if_neg (disable_iff.not.mpr hdisable)] at h
  by_cases hnothing : Rejection.nothingEnabled.AppliesTo s
  · rw [if_pos (nothing_iff.mpr hnothing)] at h
    cases h
    refine ⟨hnothing, fun r' hr' => ?_⟩
    cases r' <;> first | contradiction | simp [Rejection.rank]
  rw [if_neg (nothing_iff.not.mpr hnothing)] at h
  exact isFirstFor_of_badName? ⟨hboth, henable, hdisable, hnothing⟩ h

theorem not_appliesTo_of_rejection? {s : Selection} (h : s.rejection? = none) (r : Rejection) :
    ¬ r.AppliesTo s := by
  unfold rejection? at h
  split_ifs at h with hboth henable hdisable hnothing
  unfold badName? at h
  split at h
  · cases h
  rename_i hknown
  rw [Option.map_eq_none_iff] at h
  cases r with
  | enableAllWithDisableAll => exact both_iff.not.mp hboth
  | enableAllWithEnable => exact enable_iff.not.mp henable
  | disableAllWithDisable => exact disable_iff.not.mp hdisable
  | nothingEnabled => exact nothing_iff.not.mp hnothing
  | unknownRule n =>
    intro hn
    rw [unknown_iff.mpr hn] at hknown
    cases hknown
  | enabledAndDisabled n =>
    intro hn
    rw [contradictory_iff.mpr hn] at h
    cases h

theorem rejection?_eq_some_iff {s : Selection} {r : Rejection} :
    s.rejection? = some r ↔ r.IsFirstFor s := by
  refine ⟨isFirstFor_of_rejection?, fun h => ?_⟩
  cases hfound : s.rejection? with
  | none => exact absurd h.1 (not_appliesTo_of_rejection? hfound r)
  | some r' => rw [h.eq (isFirstFor_of_rejection? hfound)]

theorem validate_eq_error_iff {s : Selection} {r : Rejection} :
    s.validate = .error r ↔ r.IsFirstFor s := by
  rw [← rejection?_eq_some_iff, validate]
  cases s.rejection? <;> simp

theorem validate_eq_ok_iff {s : Selection} :
    s.validate = .ok () ↔ ∀ r : Rejection, ¬ r.AppliesTo s := by
  rw [validate]
  cases hfound : s.rejection? with
  | none => exact iff_of_true rfl (not_appliesTo_of_rejection? hfound)
  | some r =>
    refine iff_of_false (by simp) fun h => h r (isFirstFor_of_rejection? hfound).1

/-! ## Names -/

/-- The selections have the same flags and mention the same names, in whatever order
and how often ever. -/
structure SameNames (s s' : Selection) : Prop where
  enableAll : s.enableAll = s'.enableAll
  disableAll : s.disableAll = s'.disableAll
  enable : ∀ n, n ∈ s.enable ↔ n ∈ s'.enable
  disable : ∀ n, n ∈ s.disable ↔ n ∈ s'.disable

theorem eq_nil_congr {names names' : List String} (h : ∀ n, n ∈ names ↔ n ∈ names') :
    names = [] ↔ names' = [] := by
  simp only [List.eq_nil_iff_forall_not_mem, h]

/-- Whether some reason applies can be seen without the order of the names. -/
theorem validate_eq_ok_iff_forall_mem {s : Selection} :
    s.validate = .ok () ↔ s.FlagsInOrder ∧
      (∀ n, n ∈ s.enable ∨ n ∈ s.disable → ∃ r : Rule, r.name = n) ∧
      ∀ n ∈ s.enable, n ∉ s.disable := by
  have hunknown : (∃ n, (Rejection.unknownRule n).AppliesTo s) ↔
      ∃ n ∈ s.enable ++ s.disable, ∀ r : Rule, r.name ≠ n := exists_isFirst_iff
  have hboth : (∃ n, (Rejection.enabledAndDisabled n).AppliesTo s) ↔
      ∃ n ∈ s.enable, n ∈ s.disable := exists_isFirst_iff
  rw [validate_eq_ok_iff]
  constructor
  · intro h
    refine ⟨⟨h _, h _, h _, h _⟩, ?_, ?_⟩
    · intro n hn
      by_contra hnone
      obtain ⟨m, hm⟩ := hunknown.mpr ⟨n, List.mem_append.mpr hn, not_exists.mp hnone⟩
      exact h _ hm
    · intro n hn hd
      obtain ⟨m, hm⟩ := hboth.mpr ⟨n, hn, hd⟩
      exact h _ hm
  · rintro ⟨hflags, hknown, hdisjoint⟩ r hr
    cases r with
    | enableAllWithDisableAll => exact hflags.flags hr
    | enableAllWithEnable => exact hflags.enable hr
    | disableAllWithDisable => exact hflags.disable hr
    | nothingEnabled => exact hflags.something hr
    | unknownRule n =>
      obtain ⟨m, hm, hnone⟩ := hunknown.mp ⟨n, hr⟩
      obtain ⟨r, hr⟩ := hknown m (List.mem_append.mp hm)
      exact hnone r hr
    | enabledAndDisabled n =>
      obtain ⟨m, hm, hd⟩ := hboth.mp ⟨n, hr⟩
      exact hdisjoint m hm hd

theorem SameNames.flagsInOrder {s s' : Selection} (h : s.SameNames s') (hs : s.FlagsInOrder) :
    s'.FlagsInOrder := by
  obtain ⟨hflags, henable, hdisable, hsomething⟩ := hs
  simp only [Rejection.AppliesTo, h.enableAll, h.disableAll, ne_eq, eq_nil_congr h.enable,
    eq_nil_congr h.disable] at hflags henable hdisable hsomething
  exact ⟨hflags, henable, hdisable, hsomething⟩

theorem SameNames.validate_eq_ok {s s' : Selection} (h : s.SameNames s')
    (hs : s.validate = .ok ()) : s'.validate = .ok () := by
  rw [validate_eq_ok_iff_forall_mem] at hs ⊢
  simp only [h.enable, h.disable] at hs
  exact ⟨h.flagsInOrder hs.1, hs.2⟩

/-! ## Rules -/

/-- What a selection asks for: its rules to begin with and those it enables, without
those it disables. -/
def Asks (s : Selection) (r : Rule) : Prop :=
  (s.enableAll = true ∨ s.disableAll = false ∧ r.onByDefault = true ∨ r.name ∈ s.enable) ∧
    r.name ∉ s.disable

instance (s : Selection) : DecidablePred s.Asks := fun _ => inferInstanceAs (Decidable (_ ∧ _))

theorem mem_named {names : List String} {r : Rule} : r ∈ named names ↔ r.name ∈ names := by
  simp [named, Rule.ofName?_eq_some_iff]

theorem mem_base {s : Selection} {r : Rule} : r ∈ s.base ↔
    s.enableAll = true ∨ s.disableAll = false ∧ r.onByDefault = true := by
  unfold base
  split_ifs <;> simp_all [Std.TreeSet.mem_ofList, Rule.mem_all]

/-- What is left after all members of a list have been taken away. -/
theorem mem_foldl_erase {rules : Std.TreeSet Rule} {gone : List Rule} {r : Rule} :
    r ∈ gone.foldl (fun rules r => rules.erase r) rules ↔ r ∈ rules ∧ r ∉ gone := by
  induction gone generalizing rules with
  | nil => simp
  | cons g gone ih =>
    rw [List.foldl_cons, ih, Std.TreeSet.mem_erase, List.mem_cons, not_or, ne_eq,
      Std.LawfulEqOrd.compare_eq_iff_eq, eq_comm (a := g)]
    tauto

/-- Rules come out of a set in the order in which they are declared. -/
theorem pairwise_toList (rules : Std.TreeSet Rule) : rules.toList.Pairwise Rule.Before :=
  rules.ordered_toList.imp fun h => Nat.compare_eq_lt.mp h

/-- A selection in order runs what it asks for. -/
theorem enabled_eq_filter {s : Selection} (h : s.validate = .ok ()) :
    s.enabled = .ok (Rule.all.filter fun r => s.Asks r) := by
  rw [enabled, h]
  apply congrArg Except.ok
  apply Rule.eq_of_pairwise (pairwise_toList _) (Rule.all_pairwise.filter _)
  intro r
  rw [Std.TreeSet.mem_toList, mem_foldl_erase, Std.TreeSet.mem_insertMany_list, mem_base,
    List.contains_iff_mem, mem_named, mem_named, List.mem_filter, decide_eq_true_eq, Asks, or_assoc,
    and_iff_right (Rule.mem_all r)]

theorem enabled_of_error {s : Selection} {r : Rejection} (h : s.validate = .error r) :
    s.enabled = .error r := by
  rw [enabled, h]
  rfl

/-- A selection in order runs what it asks for, in the order of the rules. -/
theorem exists_enabled {s : Selection} (h : s.validate = .ok ()) :
    ∃ rules, s.enabled = .ok rules ∧ rules.Pairwise Rule.Before ∧ ∀ r, r ∈ rules ↔ s.Asks r := by
  refine ⟨_, enabled_eq_filter h, Rule.all_pairwise.filter _, ?_⟩
  intro r
  simp [Rule.mem_all]

theorem enabled_eq_error_iff {s : Selection} {r : Rejection} :
    s.enabled = .error r ↔ s.validate = .error r := by
  refine ⟨fun h => ?_, enabled_of_error⟩
  cases hs : s.validate with
  | error r' => rw [Except.error.inj ((enabled_of_error hs).symm.trans h)]
  | ok u =>
    obtain ⟨rules, hrules, -⟩ := exists_enabled hs
    rw [hrules] at h
    cases h

theorem SameNames.asks_iff {s s' : Selection} (h : s.SameNames s') (r : Rule) :
    s.Asks r ↔ s'.Asks r := by
  simp only [Asks, h.enableAll, h.disableAll, h.enable, h.disable]

theorem SameNames.enabled_eq {s s' : Selection} (h : s.SameNames s')
    (hs : s.validate = .ok ()) : s'.enabled = s.enabled := by
  obtain ⟨rules, hrules, hbefore, hmem⟩ := exists_enabled hs
  obtain ⟨rules', hrules', hbefore', hmem'⟩ := exists_enabled (h.validate_eq_ok hs)
  rw [hrules, hrules', Rule.eq_of_pairwise hbefore' hbefore]
  intro r
  rw [hmem', hmem, h.asks_iff]

end Selection

/-! ## Linters -/

theorem Linter.ofSelection_of_error {s : Selection} {r : Selection.Rejection}
    (h : s.enabled = .error r) : ofSelection s = .error r := by
  rw [ofSelection, h]
  rfl

theorem Linter.ofSelection_of_enabled {s : Selection} {rules : List Rule}
    (h : s.enabled = .ok rules) : ∃ l, ofSelection s = .ok l ∧ l.value.rules = rules := by
  refine ⟨⟨{ rules }, [.configured (ruleNames { rules })]⟩, ?_, rfl⟩
  rw [ofSelection, h]
  rfl

theorem Linter.ofSelection_eq_error_iff {s : Selection} {r : Selection.Rejection} :
    ofSelection s = .error r ↔ s.enabled = .error r := by
  refine ⟨fun h => ?_, ofSelection_of_error⟩
  cases hs : s.enabled with
  | error r' => rw [Except.error.inj ((ofSelection_of_error hs).symm.trans h)]
  | ok rules =>
    obtain ⟨l, hl, -⟩ := ofSelection_of_enabled hs
    rw [hl] at h
    cases h

theorem Linter.ofSelection_congr {s s' : Selection} (h : s.enabled = s'.enabled) :
    ofSelection s = ofSelection s' := by
  rw [ofSelection, ofSelection, h]

namespace Selection

/-- What becomes of a selection. -/
structure Resolution (s : Selection) : Prop where
  /-- It is rejected for the first reason that applies. -/
  rejected : ∀ r, s.validate = .error r ↔ r.IsFirstFor s
  inOrder : s.validate = .ok () ↔ ∀ r : Rejection, ¬ r.AppliesTo s
  /-- Neither the rules nor a linter are given exactly if it is rejected. -/
  noRules : ∀ r, s.enabled = .error r ↔ s.validate = .error r
  noLinter : ∀ r, Linter.ofSelection s = .error r ↔ s.validate = .error r
  rules : s.validate = .ok () → ∃ rules, s.enabled = .ok rules ∧ rules.Pairwise Rule.Before ∧
    (∀ r, r ∈ rules ↔ s.Asks r) ∧ ∃ l, Linter.ofSelection s = .ok l ∧ l.value.rules = rules
  /-- Of a selection in order the names may be permuted and repeated. -/
  sameNames : s.validate = .ok () → ∀ s', s.SameNames s' →
    s'.validate = .ok () ∧ s'.enabled = s.enabled ∧
      Linter.ofSelection s' = Linter.ofSelection s

/-- Every selection, whatever its flags and the texts in its lists. -/
theorem resolution (s : Selection) : s.Resolution where
  rejected _ := validate_eq_error_iff
  inOrder := validate_eq_ok_iff
  noRules _ := enabled_eq_error_iff
  noLinter _ := Linter.ofSelection_eq_error_iff.trans enabled_eq_error_iff
  rules hs := by
    obtain ⟨rules, hrules, hbefore, hmem⟩ := exists_enabled hs
    exact ⟨rules, hrules, hbefore, hmem, Linter.ofSelection_of_enabled hrules⟩
  sameNames hs s' h :=
    ⟨h.validate_eq_ok hs, h.enabled_eq hs, Linter.ofSelection_congr (h.enabled_eq hs)⟩

/-- A name that no rule has is reported before one that is enabled and disabled. -/
example : ({ enable := ["float-compare", "x"], disable := ["float-compare"] } :
    Selection).validate = .error (.unknownRule "x") := by
  decide

end Selection

end AssertionLint
