import AssertionLint.Proofs.ComparedValues
import AssertionLint.Proofs.LinterResult

/-!
# What the log says about a run

Checking a call notes each compared value whose type is asked for and not known,
and then the call itself if it is flagged. Calls are checked in parallel: their
logs may be put together in any way that keeps each of them in order, between
the beginning and the end of the run. However this is done, there is one note
about a flagged call for every finding that reaches the queue, so the log
accounts for what the queue leaves out. All of this is said about the fields of
the entries, as a reader of the log finds them.
-/

namespace AssertionLint

/-! ## Entries -/

/-- What an entry of the log says, by field. -/
abbrev Entry := List (String × String)

namespace Entry

/-- The type of an expression is asked for and not known. -/
def unresolved (id : ExprId) : Entry :=
  [("message", "unresolved type; not a float"),
    ("expr", if id = .invalid then "ExprId::INVALID"
      else "ExprId(" ++ toString id.raw.toNat ++ ")")]

/-- A call compares floating-point values. -/
def flagged (call : Call) : Entry :=
  [("message", "float equality assertion"),
    ("call", call.receiver ++ "." ++ call.function.text),
    ("span", toString call.span.start.toNat ++ ".." ++ toString call.span.stop.toNat)]

/-- The run has ended with this many findings. -/
def finished (findings : ℕ) : Entry :=
  [("message", "analysis finished"), ("diagnostics", toString findings)]

end Entry

namespace Event

theorem fields_unresolved (id : ExprId) : (unresolved id).fields = Entry.unresolved id := by
  by_cases h : id = .invalid <;>
    simp [fields, Entry.unresolved, ExprId.text, ExprId.isValid, ExprId.index, h]

theorem fields_flagged (call : Call) : (flagged call.text call.span).fields = Entry.flagged call :=
  rfl

/-- Whether an event says that a call compares floating-point values. -/
def reportsComparison (e : Event) : Bool :=
  e.fields.lookup "message" == some "float equality assertion"

@[simp] theorem reportsComparison_iff {e : Event} :
    e.reportsComparison = true ↔ ∃ call span, e = .flagged call span := by
  cases e <;> simp [reportsComparison, fields, List.lookup_cons]

end Event

/-! ## One call -/

namespace Context

variable (ctx : Context)

/-- The notes about those expressions whose type is not known. -/
def unresolved (ids : List ExprId) : List Event :=
  (ids.filter fun id => (ctx.types id).isNone).map .unresolved

theorem isFloat_log (id : ExprId) : (ctx.isFloat id).log = ctx.unresolved [id] := by
  unfold isFloat unresolved
  cases h : ctx.types id <;> simp [h]

theorem eitherFloat_log_of_floating {left : ExprId} (h : ctx.Floating left) (right : ExprId) :
    (ctx.eitherFloat left right).log = ctx.unresolved [left] := by
  have hleft := (ctx.isFloat_value left).mpr h
  simp [eitherFloat, hleft, isFloat_log]

theorem eitherFloat_log_of_not_floating {left : ExprId} (h : ¬ctx.Floating left)
    (right : ExprId) : (ctx.eitherFloat left right).log = ctx.unresolved [left, right] := by
  have hleft : (ctx.isFloat left).value = false := by
    rw [← Bool.not_eq_true, isFloat_value]
    exact h
  have hlog : (ctx.eitherFloat left right).log =
      ctx.unresolved [left] ++ ctx.unresolved [right] := by
    simp [eitherFloat, hleft, isFloat_log]
  rw [hlog, unresolved, unresolved, ← List.map_append, ← List.filter_append]
  rfl

end Context

namespace FloatCompare

/-- The compared values whose types are asked for, in order. The second one is
passed over if the first is floating-point. -/
inductive Inspects (ctx : Context) (call : Call) : List ExprId → Prop
  | neither (h : ∀ left right, ¬Compares ctx.arena call left right) : Inspects ctx call []
  | first {left right : ExprId} (h : Compares ctx.arena call left right)
      (floating : ctx.Floating left) : Inspects ctx call [left]
  | both {left right : ExprId} (h : Compares ctx.arena call left right)
      (other : ¬ctx.Floating left) : Inspects ctx call [left, right]

theorem exists_inspects (ctx : Context) (call : Call) : ∃ ids, Inspects ctx call ids := by
  by_cases h : ∃ left right, Compares ctx.arena call left right
  · obtain ⟨left, right, h⟩ := h
    by_cases hleft : ctx.Floating left
    · exact ⟨[left], .first h hleft⟩
    · exact ⟨[left, right], .both h hleft⟩
  · push Not at h
    exact ⟨[], .neither h⟩

/-- What is noted about a call, given the values whose types are asked for. -/
def notes (ctx : Context) (call : Call) (inspected : List ExprId) : List Entry :=
  (inspected.filter fun id => (ctx.types id).isNone).map .unresolved ++
    if Flagged ctx call then [.flagged call] else []

/-- The events behind these notes. -/
def events (ctx : Context) (call : Call) (inspected : List ExprId) : List Event :=
  ctx.unresolved inspected ++ if Flagged ctx call then [.flagged call.text call.span] else []

variable {ctx : Context} {call : Call}

theorem flags_log {ids : List ExprId} (h : Inspects ctx call ids) :
    (flags ctx call).log = ctx.unresolved ids := by
  cases h with
  | neither h =>
    rw [flags_of_not_compares h]
    rfl
  | first h floating => rw [flags_of_compares h, ctx.eitherFloat_log_of_floating floating]
  | both h other => rw [flags_of_compares h, ctx.eitherFloat_log_of_not_floating other]

theorem check_log {ids : List ExprId} (h : Inspects ctx call ids) :
    (check ctx call).log = events ctx call ids := by
  rw [check, Logged.log_bind, flags_log h, events]
  by_cases hf : Flagged ctx call
  · have hv := (flags_value ctx call).mpr hf
    simp only [hv, hf, if_true]
    rfl
  · have hv : (flags ctx call).value = false := by
      rw [← Bool.not_eq_true, flags_value]
      exact hf
    simp only [hv, hf, if_false]
    rfl

theorem map_fields_events (ctx : Context) (call : Call) (ids : List ExprId) :
    (events ctx call ids).map Event.fields = notes ctx call ids := by
  rw [events, notes, List.map_append, Context.unresolved, List.map_map]
  congr 1
  · apply List.map_congr_left
    intro id _
    exact Event.fields_unresolved id
  · split
    · exact congrArg (fun entry => [entry]) (Event.fields_flagged call)
    · rfl

theorem opens?_of_mem_events {ids : List ExprId} {e : Event} (h : e ∈ events ctx call ids) :
    e.opens? = none := by
  rcases List.mem_append.mp h with h | h
  · obtain ⟨id, -, rfl⟩ := List.mem_map.mp h
    rfl
  · split at h
    · rw [List.mem_singleton.mp h]
      rfl
    · cases h

end FloatCompare

theorem Context.countP_unresolved (ctx : Context) (ids : List ExprId) :
    (ctx.unresolved ids).countP Event.reportsComparison = 0 := by
  apply List.countP_eq_zero.mpr
  intro e he
  obtain ⟨id, -, rfl⟩ := List.mem_map.mp he
  simp

/-- A rule reports a comparison exactly when it has a finding. -/
theorem Rule.countP_check (r : Rule) (ctx : Context) (call : Call) :
    (r.check ctx call).log.countP Event.reportsComparison =
      (r.check ctx call).value.toList.length := by
  cases r
  obtain ⟨ids, hids⟩ := FloatCompare.exists_inspects ctx call
  rw [Rule.check, FloatCompare.check_log hids, FloatCompare.check_value, FloatCompare.events,
    List.countP_append, ctx.countP_unresolved]
  split <;> simp

/-! ## Calls in parallel -/

/-- `out` puts two lists together and keeps each of them in order. -/
inductive Interleave {α : Type} : List α → List α → List α → Prop
  | nil : Interleave [] [] []
  | left {a : α} {as bs out : List α} : Interleave as bs out → Interleave (a :: as) bs (a :: out)
  | right {b : α} {as bs out : List α} : Interleave as bs out → Interleave as (b :: bs) (b :: out)

/-- `out` puts any number of lists together and keeps each of them in order. -/
inductive InterleaveAll {α : Type} : List (List α) → List α → Prop
  | nil : InterleaveAll [] []
  | cons {as rest out : List α} {lists : List (List α)} :
      InterleaveAll lists rest → Interleave as rest out → InterleaveAll (as :: lists) out

section Interleave

variable {α : Type}

theorem Interleave.append (as bs : List α) : Interleave as bs (as ++ bs) := by
  induction as with
  | nil =>
    induction bs with
    | nil => exact .nil
    | cons b bs ih => exact .right ih
  | cons a as ih => exact .left ih

theorem Interleave.perm {as bs out : List α} (h : Interleave as bs out) :
    out.Perm (as ++ bs) := by
  induction h with
  | nil => exact .refl _
  | left _ ih => exact ih.cons _
  | right _ ih => exact (ih.cons _).trans List.perm_middle.symm

/-- One list after the other is one of the ways. -/
theorem InterleaveAll.flatten (lists : List (List α)) : InterleaveAll lists lists.flatten := by
  induction lists with
  | nil => exact .nil
  | cons as lists ih => exact .cons ih (.append as lists.flatten)

theorem InterleaveAll.perm {lists : List (List α)} {out : List α} (h : InterleaveAll lists out) :
    out.Perm lists.flatten := by
  induction h with
  | nil => exact .refl _
  | cons _ hout ih => exact hout.perm.trans (ih.append_left _)

theorem Interleave.map {β : Type} (f : α → β) {as bs out : List α} (h : Interleave as bs out) :
    Interleave (as.map f) (bs.map f) (out.map f) := by
  induction h with
  | nil => exact .nil
  | left _ ih => exact .left ih
  | right _ ih => exact .right ih

theorem InterleaveAll.map {β : Type} (f : α → β) {lists : List (List α)} {out : List α}
    (h : InterleaveAll lists out) : InterleaveAll (lists.map (List.map f)) (out.map f) := by
  induction h with
  | nil => exact .nil
  | cons _ hout ih => exact .cons ih (hout.map f)

end Interleave

namespace Linter

theorem checkCall_log (l : Linter) (ctx : Context) (call : Call) :
    (l.checkCall ctx call).log = l.rules.flatMap fun r => (r.check ctx call).log := by
  simp [checkCall, Logged.log_each]

/-- What a run may log when the calls are checked in parallel. -/
def ParallelLog (l : Linter) (ctx : Context) (calls : List Call) (log : List Event) : Prop :=
  ∃ checks, InterleaveAll (calls.map fun call => (l.checkCall ctx call).log) checks ∧
    log = .started calls.length l.rules.length :: checks ++
      [.finished (l.run ctx calls).value.length]

/-- Checking one call after the other is one of the ways. -/
theorem parallelLog_run (l : Linter) (ctx : Context) (calls : List Call) :
    l.ParallelLog ctx calls (l.run ctx calls).log := by
  refine ⟨_, .flatten _, ?_⟩
  simp [run, Logged.log_each, List.flatMap_def]

theorem countP_checkCall (l : Linter) (ctx : Context) (call : Call) :
    (l.checkCall ctx call).log.countP Event.reportsComparison =
      (l.checkCall ctx call).value.length := by
  rw [checkCall_log, checkCall_value]
  induction l.rules with
  | nil => rfl
  | cons r rules ih =>
    rw [List.flatMap_cons, List.countP_append, r.countP_check, ih]
    cases h : (r.check ctx call).value <;> simp [h, Nat.add_comm]

/-- However the calls are scheduled, the comparisons reported are as many as the
findings that reach the queue. -/
theorem ParallelLog.countP_eq {l : Linter} {ctx : Context} {calls : List Call}
    {log : List Event} (h : l.ParallelLog ctx calls log) :
    log.countP Event.reportsComparison = (l.found ctx calls).length := by
  obtain ⟨checks, hchecks, rfl⟩ := h
  have hcount : checks.countP Event.reportsComparison = (l.found ctx calls).length := by
    rw [hchecks.perm.countP_eq, List.countP_flatten, List.map_map, found, List.length_flatMap]
    simp [Function.comp_def, countP_checkCall]
  simp [hcount]

open FloatCompare

theorem checkCall_log_of_inspects {l : Linter} {ctx : Context} {call : Call} {ids : List ExprId}
    (h : Inspects ctx call ids) :
    (l.checkCall ctx call).log = l.rules.flatMap fun _ => events ctx call ids := by
  rw [checkCall_log]
  congr 1
  funext r
  cases r
  exact check_log h

theorem opens?_of_mem_checkCall {l : Linter} {ctx : Context} {call : Call} {e : Event}
    (h : e ∈ (l.checkCall ctx call).log) : e.opens? = none := by
  obtain ⟨ids, hids⟩ := exists_inspects ctx call
  rw [checkCall_log_of_inspects hids] at h
  obtain ⟨r, -, he⟩ := List.mem_flatMap.mp h
  exact opens?_of_mem_events he

theorem map_fields_checkCall {l : Linter} {ctx : Context} {call : Call} {ids : List ExprId}
    (h : Inspects ctx call ids) :
    (l.checkCall ctx call).log.map Event.fields =
      l.rules.flatMap fun _ => notes ctx call ids := by
  rw [checkCall_log_of_inspects h, List.map_flatMap]
  simp only [map_fields_events]

/-- All but the entry that opens the run, given the values whose types are asked for. -/
theorem ParallelLog.exists_notes {l : Linter} {ctx : Context} {calls : List Call}
    {log : List Event} (h : l.ParallelLog ctx calls log) {inspected : Call → List ExprId}
    (hinspected : ∀ call, Inspects ctx call (inspected call)) :
    ∃ checks,
      InterleaveAll
        (calls.map fun call => l.rules.flatMap fun _ => notes ctx call (inspected call)) checks ∧
      (log.filter fun e => e.opens?.isNone).map Event.fields =
        checks ++ [.finished (l.run ctx calls).value.length] := by
  obtain ⟨checks, hchecks, rfl⟩ := h
  have hevents : ∀ e ∈ checks, e.opens?.isNone = true := by
    intro e he
    obtain ⟨log, hlog, he⟩ := List.mem_flatten.mp (hchecks.perm.mem_iff.mp he)
    obtain ⟨call, -, rfl⟩ := List.mem_map.mp hlog
    rw [opens?_of_mem_checkCall he, Option.isNone_none]
  refine ⟨checks.map Event.fields, ?_, ?_⟩
  · have hfields := hchecks.map Event.fields
    simpa only [List.map_map, Function.comp_def, map_fields_checkCall (hinspected _)] using hfields
  · rw [List.filter_append, List.filter_cons_of_neg Bool.false_ne_true,
      List.filter_eq_self.mpr hevents, List.map_append]
    rfl

/-- The log of a linter for a valid selection, however the calls are scheduled. Apart
from the entry that opens the run, what it says by field are the notes about the
calls, one after the other for each rule, and a last entry with the number of findings
returned. The comparisons reported are as many as the findings without a limit and
with all repetitions. -/
theorem parallelLog_accounts (s : Selection) (h : s.validate = .ok ()) :
    ∃ l rules, ofSelection s = .ok l ∧ s.enabled = .ok rules ∧
      ∀ (c : Queue.Policy) (ctx : Context) (calls : List Call),
        let linter := l.value.withPolicy c
        let out := (linter.run ctx calls).value
        linter.ParallelLog ctx calls (linter.run ctx calls).log ∧
        ∃ inspected : Call → List ExprId, (∀ call, Inspects ctx call (inspected call)) ∧
          ∀ log, linter.ParallelLog ctx calls log →
            (∃ checks,
              InterleaveAll
                (calls.map fun call => rules.flatMap fun _ => notes ctx call (inspected call))
                checks ∧
              (log.filter fun e => e.opens?.isNone).map Event.fields =
                checks ++ [.finished out.length]) ∧
            let reported := log.countP Event.reportsComparison
            reported = (l.value.run ctx calls).value.length ∧ out.length ≤ reported ∧
              (c.dropRepeats = false →
                out.length = if c.limit = 0 then reported else min c.limit reported) := by
  obtain ⟨l, hl, hpolicy, hrules⟩ := ofSelection_of_validate h
  refine ⟨l, l.value.rules, hl, by rw [s.enabled_of_validate h, hrules], ?_⟩
  intro c ctx calls linter out
  refine ⟨linter.parallelLog_run ctx calls, ?_⟩
  choose inspected hinspected using exists_inspects ctx
  refine ⟨inspected, hinspected, ?_⟩
  intro log hlog
  have hreported : log.countP Event.reportsComparison = (linter.found ctx calls).length :=
    hlog.countP_eq
  have hout : out = Queue.arrange c (linter.found ctx calls) := run_value linter ctx calls
  refine ⟨hlog.exists_notes hinspected, ?_, ?_, ?_⟩
  · rw [hreported, run_value, hpolicy, Queue.length_arrange_of_keep rfl, if_pos rfl]
    rfl
  · rw [hreported, hout]
    exact Queue.length_arrange_le c _
  · intro hkeep
    rw [hreported, hout]
    exact Queue.length_arrange_of_keep hkeep _

/-- Two calls whose checks overlap. Only the second one is flagged, and three types
are asked for and not known. -/
theorem parallelLog_accounts_overlapping :
    let a : Arena := ⟨#[.binary .notEq ⟨8⟩ ⟨9⟩], #[.unknown]⟩
    let asserted : Call := .ofName ⟨10, 30⟩ "False" "require" [⟨0⟩]
    let compared : Call := .ofName ⟨40, 60⟩ "Equalf" "assert" [.invalid, ⟨6⟩, ⟨7⟩]
    let ctx : Context := ⟨a, fun id => if id = ⟨6⟩ then some (.basic .float64) else none⟩
    let c : Queue.Policy := { limit := 3 }
    let log : List Event := [.started 2 1, .unresolved ⟨8⟩, .unresolved .invalid,
      .flagged "assert.Equalf" ⟨40, 60⟩, .unresolved ⟨9⟩, .finished 1]
    (default : Selection).validate = .ok () ∧
      ∃ l rules, ofSelection default = .ok l ∧ (default : Selection).enabled = .ok rules ∧
        (l.value.withPolicy c).ParallelLog ctx [asserted, compared] log ∧
        c.dropRepeats = false ∧
        ∃ inspected : Call → List ExprId, (∀ call, Inspects ctx call (inspected call)) ∧
          (∃ checks,
            InterleaveAll ([asserted, compared].map fun call =>
              rules.flatMap fun _ => notes ctx call (inspected call)) checks ∧
            (log.filter fun e => e.opens?.isNone).map Event.fields = checks ++
              [.finished ((l.value.withPolicy c).run ctx [asserted, compared]).value.length]) ∧
          (log.filter fun e => e.opens?.isNone).map Event.fields =
            [[("message", "unresolved type; not a float"), ("expr", "ExprId(8)")],
              [("message", "unresolved type; not a float"), ("expr", "ExprId::INVALID")],
              [("message", "float equality assertion"), ("call", "assert.Equalf"),
                ("span", "40..60")],
              [("message", "unresolved type; not a float"), ("expr", "ExprId(9)")],
              [("message", "analysis finished"), ("diagnostics", "1")]] ∧
          log.countP Event.reportsComparison =
            (l.value.run ctx [asserted, compared]).value.length ∧
          ((l.value.withPolicy c).run ctx [asserted, compared]).value.length =
            min 3 (log.countP Event.reportsComparison) := by
  intro a asserted compared ctx c log
  have hvalid : (default : Selection).validate = .ok () := by decide
  have hdefault : ofSelection default =
      .ok ⟨{ rules := [.floatCompare] }, [.configured ["float-compare"]]⟩ := rfl
  obtain ⟨l, rules, hl, hrules, hrun⟩ := parallelLog_accounts default hvalid
  obtain ⟨-, inspected, hinspected, hlogs⟩ := hrun c ctx [asserted, compared]
  cases hl.symm.trans hdefault
  have hlog : ({ rules := [.floatCompare], policy := c } : Linter).ParallelLog ctx
      [asserted, compared] log := by
    refine ⟨[.unresolved ⟨8⟩, .unresolved .invalid, .flagged "assert.Equalf" ⟨40, 60⟩,
      .unresolved ⟨9⟩], ?_, ?_⟩
    · have hchecks : ([asserted, compared].map fun call =>
          (checkCall ⟨[.floatCompare], c⟩ ctx call).log) =
            [[.unresolved ⟨8⟩, .unresolved ⟨9⟩],
              [.unresolved .invalid, .flagged "assert.Equalf" ⟨40, 60⟩]] := by decide
      rw [hchecks]
      exact .cons (.flatten _) (.left (.right (.right (.left .nil))))
    · rw [run_value, Queue.length_arrange_of_keep rfl]
      decide
  obtain ⟨hevents, hreported, -, hkept⟩ := hlogs log hlog
  exact ⟨hvalid, _, rules, hl, hrules, hlog, rfl, inspected, hinspected, hevents,
    by decide, hreported, hkept rfl⟩

end Linter

end AssertionLint
