import AssertionLint.Linter
import AssertionLint.Proofs.EnabledRules
import AssertionLint.Proofs.QueueHistory
import AssertionLint.Proofs.Verdict

/-!
# What a linter returns for a file

A linter for a valid selection returns one finding for each flagged call, in the
order of the source, or nothing if the selection disables a rule. As a finding
of a rule carries no fixes, its key says all about it, and neither the order of
the calls nor the order in which their findings arrive in the queue has any
influence.
-/

namespace AssertionLint

namespace Linter

theorem checkCall_value (l : Linter) (ctx : Context) (call : Call) :
    (l.checkCall ctx call).value = l.rules.filterMap fun r => (r.check ctx call).value := by
  simp [checkCall, Logged.value_each, List.filterMap_map]

/-- What all calls of a file lead to, call by call, before it is put in order. -/
def found (l : Linter) (ctx : Context) (calls : List Call) : List Finding :=
  calls.flatMap fun call => (l.checkCall ctx call).value

theorem run_value (l : Linter) (ctx : Context) (calls : List Call) :
    (l.run ctx calls).value = Queue.arrange l.policy (l.found ctx calls) := by
  simp [run, found, Logged.value_each, Queue.flush, Queue.extend, Queue.new, List.flatMap_def]

theorem ofSelection_of_validate {s : Selection} (h : s.validate = .ok ()) :
    ∃ l, ofSelection s = .ok l ∧ l.value.policy = {} ∧
      l.value.rules = if s.disable = [] then [.floatCompare] else [] := by
  let l : Linter := { rules := if s.disable = [] then [.floatCompare] else [] }
  refine ⟨⟨l, [.configured l.ruleNames]⟩, ?_, rfl, rfl⟩
  simp only [ofSelection, s.enabled_of_validate h]
  rfl

open FloatCompare

theorem found_of_rules {l : Linter} (h : l.rules = [.floatCompare]) (ctx : Context)
    (calls : List Call) :
    l.found ctx calls = (calls.filter fun call => Flagged ctx call).map finding := by
  have hcall : ∀ call, (l.checkCall ctx call).value =
      if Flagged ctx call then [finding call] else [] := by
    intro call
    by_cases hf : Flagged ctx call <;> simp [checkCall_value, h, Rule.check, check_value, hf]
  simp only [found, hcall]
  induction calls with
  | nil => rfl
  | cons call calls ih =>
    by_cases hf : Flagged ctx call <;> simp [hf, ih]

/-- If the parts of the names come from the texts, so does all that is found. -/
theorem map_finding_filter {ctx : Context} {calls : List Call}
    (h : ∀ call ∈ calls, call.function = .ofText call.function.text) :
    (calls.filter fun call => Flagged ctx call).map finding =
      (calls.filter fun call => FlaggedAs call.function.Means ctx call.args).map proposal := by
  have hfilter : (calls.filter fun call => Flagged ctx call) =
      calls.filter fun call => FlaggedAs call.function.Means ctx call.args := by
    apply List.filter_congr
    intro call hcall
    rw [decide_eq_decide]
    exact flagged_iff_means ctx (h call hcall)
  rw [hfilter]
  apply List.map_congr_left
  intro call hcall
  exact finding_eq_proposal (h call (List.mem_of_mem_filter hcall))

/-- The result of a linter for a valid selection: nothing if a rule is disabled,
and otherwise the one list that holds the proposals for the flagged calls in the
order of the source. -/
theorem run_sortedFrom (s : Selection) (h : s.validate = .ok ()) :
    ∃ l, ofSelection s = .ok l ∧ ∀ (ctx : Context) (calls : List Call),
      (∀ call ∈ calls, call.function = .ofText call.function.text) →
      (s.disable ≠ [] → (l.value.run ctx calls).value = []) ∧
      (s.disable = [] → ∀ out,
        Finding.SortedFrom
            ((calls.filter fun call => FlaggedAs call.function.Means ctx call.args).map proposal)
            out ↔
          out = (l.value.run ctx calls).value) := by
  obtain ⟨l, hl, hpolicy, hrules⟩ := ofSelection_of_validate h
  refine ⟨l, hl, ?_⟩
  intro ctx calls hnames
  rw [run_value, hpolicy]
  constructor
  · intro hd
    rw [if_neg hd] at hrules
    have hfound : l.value.found ctx calls = [] := by
      simp [found, checkCall_value, hrules]
    rw [hfound]
    simp [Queue.arrange, Queue.sort, Queue.cut]
  · intro hd out
    rw [if_pos hd] at hrules
    rw [found_of_rules hrules, map_finding_filter hnames]
    exact Queue.sortedFrom_iff

/-- An equality that is asserted to be true behind a comparison of its operands, and one
that is asserted to be false. Naming the rule twice does not make it run twice. -/
theorem run_sortedFrom_asserted :
    let s := Selection.only ["float-compare", "float-compare"]
    let ctx : Context := ⟨⟨#[.binary .eq ⟨1⟩ ⟨2⟩, .ident "x", .ident "y"],
      #[⟨17, 23⟩, ⟨17, 18⟩, ⟨22, 23⟩]⟩,
      fun id => if id = ⟨2⟩ then some (.named "Celsius" (.basic .float64)) else none⟩
    let compared : Call := .ofName ⟨40, 60⟩ "Equal" "assert" [⟨1⟩, ⟨2⟩]
    let denied : Call := .ofName ⟨0, 9⟩ "False" "assert" [⟨0⟩]
    let asserted : Call := .ofName ⟨10, 30⟩ "Truef" "require" [⟨0⟩, ⟨7⟩]
    let calls := [compared, denied, asserted]
    s.validate = .ok () ∧ s.disable = [] ∧
      (∀ call ∈ calls, call.function = .ofText call.function.text) ∧
      ∃ l, ofSelection s = .ok l ∧ (l.value.run ctx calls).value =
        [⟨"float-compare", "use require.InEpsilonf (or InDeltaf)", ⟨10, 30⟩, []⟩,
          ⟨"float-compare", "use assert.InEpsilon (or InDelta)", ⟨40, 60⟩, []⟩] := by
  intro s ctx compared denied asserted calls
  have hvalid : s.validate = .ok () := by decide
  have hnames : ∀ call ∈ calls, call.function = .ofText call.function.text := by decide
  obtain ⟨l, hl, hrun⟩ := run_sortedFrom s hvalid
  refine ⟨hvalid, rfl, hnames, l, hl, ?_⟩
  symm
  apply ((hrun ctx calls hnames).2 rfl _).mp
  have hflagged :
      (calls.filter fun call => FlaggedAs call.function.Means ctx call.args).map proposal =
        [proposal compared, proposal asserted] := by
    decide
  have horder : (Finding.order (proposal compared) (proposal asserted)).isLE = false := by decide
  have hsort : Queue.sort [proposal compared, proposal asserted] =
      [proposal asserted, proposal compared] := by
    simp [Queue.sort, List.mergeSort, horder]
  rw [hflagged, Queue.sortedFrom_iff, hsort]
  decide

/-! ## Order of the calls -/

theorem fixes_of_mem_found {l : Linter} {ctx : Context} {calls : List Call} {f : Finding}
    (h : f ∈ l.found ctx calls) : f.fixes = [] := by
  obtain ⟨call, -, hf⟩ := List.mem_flatMap.mp h
  rw [checkCall_value] at hf
  obtain ⟨r, -, hr⟩ := List.mem_filterMap.mp hf
  cases r
  rw [Rule.check, check_value] at hr
  split_ifs at hr
  cases hr
  rfl

theorem eq_of_key_of_mem_found {l : Linter} {ctx : Context} {calls : List Call} {f g : Finding}
    (hf : f ∈ l.found ctx calls) (hg : g ∈ l.found ctx calls) (h : f.key = g.key) : f = g := by
  obtain ⟨hspan, hrule, hmessage⟩ := Finding.key_eq_iff.mp h
  have hfixes := (fixes_of_mem_found hf).trans (fixes_of_mem_found hg).symm
  cases f
  cases g
  simp_all

/-- Findings of a file are put in the same order however they arrive. -/
theorem arrange_of_perm_found {l : Linter} {ctx : Context} {calls : List Call}
    {fs : List Finding} (h : fs.Perm (l.found ctx calls)) (c : Queue.Policy) :
    Queue.arrange c fs = Queue.arrange c (l.found ctx calls) := by
  refine (Queue.arrange_eq_of_perm c h.symm ?_).symm
  intro f hf g hg
  exact eq_of_key_of_mem_found hf hg

/-- Whatever the policy of the queue, a linter returns the same findings in the
same order for every order of the calls, and so does every run of a queue that
ends with the findings of the single calls waiting in any order. -/
theorem run_eq_of_perm (s : Selection) (h : s.validate = .ok ()) (c : Queue.Policy)
    (ctx : Context) (calls calls' : List Call) (hp : calls.Perm calls') :
    ∃ l, ofSelection s = .ok l ∧
      ((l.value.withPolicy c).run ctx calls).value =
        ((l.value.withPolicy c).run ctx calls').value ∧
      ∀ steps : List Queue.Step,
        (Queue.waiting steps).Perm
          (calls.flatMap fun call => ((l.value.withPolicy c).checkCall ctx call).value) →
        ((Queue.new c).run steps).2.flush.1 = ((l.value.withPolicy c).run ctx calls').value := by
  obtain ⟨l, hl, -, -⟩ := ofSelection_of_validate h
  have hfound : ((l.value.withPolicy c).found ctx calls).Perm
      ((l.value.withPolicy c).found ctx calls') := hp.flatMap_right _
  refine ⟨l, hl, ?_, ?_⟩
  · rw [run_value, run_value]
    exact arrange_of_perm_found hfound _
  · intro steps hsteps
    rw [Queue.run_state, run_value]
    exact arrange_of_perm_found (hsteps.trans hfound) c

/-- Two calls at one place, only one of them a formatting variant, in either order
and with a queue that keeps a single finding. -/
theorem run_eq_of_perm_swap :
    let plain : Call := .ofName ⟨7, 3⟩ "Equal" "assert" [⟨0⟩, ⟨1⟩]
    let formatting : Call := ⟨⟨7, 3⟩, ⟨"Equal", "Exactly", true⟩, "assert", [⟨1⟩, ⟨0⟩]⟩
    let ctx : Context := ⟨.empty, fun _ => some (.basic .float64)⟩
    let c : Queue.Policy := { limit := 1, dropRepeats := true }
    (default : Selection).validate = .ok () ∧ [plain, formatting].Perm [formatting, plain] ∧
      ∃ l, ofSelection default = .ok l ∧
        ((l.value.withPolicy c).run ctx [plain, formatting]).value =
          ((l.value.withPolicy c).run ctx [formatting, plain]).value ∧
        ((Queue.new c).run [.extend ((l.value.withPolicy c).checkCall ctx formatting).value,
            .extend ((l.value.withPolicy c).checkCall ctx plain).value]).2.flush.1 =
          ((l.value.withPolicy c).run ctx [formatting, plain]).value := by
  intro plain formatting ctx c
  have hvalid : (default : Selection).validate = .ok () := by decide
  have hperm : [plain, formatting].Perm [formatting, plain] := List.Perm.swap _ _ _
  obtain ⟨l, hl, hrun, hsteps⟩ := run_eq_of_perm default hvalid c ctx _ _ hperm
  refine ⟨hvalid, hperm, l, hl, hrun, ?_⟩
  apply hsteps
  simpa [Queue.waiting, List.rtakeWhile, Queue.Step.isFlush, Queue.Step.arrivals]
    using List.perm_append_comm

end Linter

end AssertionLint
