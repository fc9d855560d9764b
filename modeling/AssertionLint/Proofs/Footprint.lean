import AssertionLint.Linter
import AssertionLint.Proofs.ArenaHistory

/-!
# What a verdict reads

The verdict about a call reads the shape of the first argument, the types of the
first two arguments and, if the first argument is binary, the types of its two
operands. Two contexts that agree there give the same verdict and the same log,
whatever else they hold. A file may therefore be described further while its
calls are checked: new nodes never change old ones, and new types do not matter
unless they are recorded for an expression that is read.
-/

namespace AssertionLint

/-- The operands of the first argument, if it is binary. -/
def Call.operands (call : Call) (a : Arena) : List ExprId :=
  match call.args.head?.bind a.binary? with
  | some (_, left, right) => [left, right]
  | none => []

/-- The contexts are alike in all that is read about the call. -/
structure Context.AgreeOn (ctx ctx' : Context) (call : Call) : Prop where
  shape : ∀ arg ∈ call.args.head?, ctx.arena.shape? arg = ctx'.arena.shape? arg
  args : ∀ id ∈ call.args.take 2, ctx.types id = ctx'.types id
  operands : ∀ id ∈ call.operands ctx.arena, ctx.types id = ctx'.types id

/-! ## Verdicts -/

namespace Context

variable {ctx ctx' : Context}

theorem isFloat_congr {id : ExprId} (h : ctx.types id = ctx'.types id) :
    ctx.isFloat id = ctx'.isFloat id := by
  rw [isFloat, isFloat, h]

theorem eitherFloat_congr {left right : ExprId} (hl : ctx.types left = ctx'.types left)
    (hr : ctx.types right = ctx'.types right) :
    ctx.eitherFloat left right = ctx'.eitherFloat left right := by
  rw [eitherFloat, eitherFloat, isFloat_congr hl, isFloat_congr hr]

theorem isFloatComparison_congr {call : Call} (h : ctx.AgreeOn ctx' call) {arg : ExprId}
    {rest : List ExprId} (hargs : call.args = arg :: rest) (op : BinaryOp) :
    ctx.isFloatComparison arg op = ctx'.isFloatComparison arg op := by
  have hbinary : ctx.arena.binary? arg = ctx'.arena.binary? arg := by
    rw [Arena.binary?, Arena.binary?, h.shape arg (by simp [hargs])]
  rw [isFloatComparison, isFloatComparison, ← hbinary]
  cases hb : ctx.arena.binary? arg with
  | none => rfl
  | some b =>
    obtain ⟨actual, left, right⟩ := b
    have hoperands : call.operands ctx.arena = [left, right] := by
      simp [Call.operands, hargs, hb]
    simp only
    rw [eitherFloat_congr (h.operands left (by simp [hoperands]))
      (h.operands right (by simp [hoperands]))]

end Context

namespace FloatCompare

theorem flags_congr {ctx ctx' : Context} {call : Call} (h : ctx.AgreeOn ctx' call) :
    flags ctx call = flags ctx' call := by
  cases hargs : call.args with
  | nil => simp only [flags, hargs]
  | cons first rest =>
    have hcomparison := Context.isFloatComparison_congr h hargs
    cases rest with
    | nil => simp only [flags, hargs, hcomparison]
    | cons second rest =>
      have hvalues : ctx.eitherFloat first second = ctx'.eitherFloat first second := by
        apply Context.eitherFloat_congr
        · exact h.args first (by simp [hargs])
        · exact h.args second (by simp [hargs])
      simp only [flags, hargs, hcomparison, hvalues]

theorem check_congr {ctx ctx' : Context} {call : Call} (h : ctx.AgreeOn ctx' call) :
    check ctx call = check ctx' call := by
  rw [check, check, flags_congr h]

end FloatCompare

theorem Logged.each_congr {α β : Type} {f g : α → Logged β} {as : List α}
    (h : ∀ a ∈ as, f a = g a) : each f as = each g as := by
  induction as with
  | nil => rfl
  | cons a as ih =>
    rw [each, each, h a List.mem_cons_self, ih fun b hb => h b (List.mem_cons_of_mem a hb)]

namespace Linter

/-- The rule is all that a linter asks about a call. -/
theorem checkCall_of_check_eq (l : Linter) {ctx ctx' : Context} {call : Call}
    (h : FloatCompare.check ctx call = FloatCompare.check ctx' call) :
    l.checkCall ctx call = l.checkCall ctx' call := by
  have hrules : Logged.each (fun r : Rule => r.check ctx call) l.rules =
      Logged.each (fun r : Rule => r.check ctx' call) l.rules := by
    apply Logged.each_congr
    intro r _
    cases r
    exact h
  rw [checkCall, checkCall, hrules]

theorem run_of_check_eq (l : Linter) {ctx ctx' : Context} {calls : List Call}
    (h : ∀ call ∈ calls, FloatCompare.check ctx call = FloatCompare.check ctx' call) :
    l.run ctx calls = l.run ctx' calls := by
  have hcalls : Logged.each (l.checkCall ctx) calls = Logged.each (l.checkCall ctx') calls := by
    apply Logged.each_congr
    intro call hcall
    exact l.checkCall_of_check_eq (h call hcall)
  rw [run, run, hcalls]

theorem run_congr (l : Linter) {ctx ctx' : Context} {calls : List Call}
    (h : ∀ call ∈ calls, ctx.AgreeOn ctx' call) : l.run ctx calls = l.run ctx' calls := by
  apply l.run_of_check_eq
  intro call hcall
  exact FloatCompare.check_congr (h call hcall)

end Linter

/-! ## Further descriptions -/

/-- The expressions of a file and the types recorded for them so far. -/
structure Facts where
  arena : Arena
  table : Ty.Table

namespace Facts

def context (facts : Facts) : Context := ⟨facts.arena, facts.table.typing⟩

/-- How a file is described further. -/
inductive Step where
  | node (s : Arena.Step)
  | record (id : ExprId) (ty : Ty)
  deriving DecidableEq, Repr

def step (facts : Facts) : Step → Facts
  | .node s => { facts with arena := (facts.arena.step s).2 }
  | .record id ty => { facts with table := (facts.table.record id ty).2 }

/-- The facts after a whole sequence of steps. -/
def run (facts : Facts) (steps : List Step) : Facts := steps.foldl step facts

theorem size_le_step (facts : Facts) (s : Step) :
    facts.arena.size ≤ (facts.step s).arena.size := by
  cases s with
  | node s => exact (facts.arena.extends_step s).size_le
  | record id ty => exact le_rfl

theorem shape?_step (facts : Facts) (s : Step) {id : ExprId}
    (h : id.index < facts.arena.size) :
    (facts.step s).arena.shape? id = facts.arena.shape? id := by
  cases s with
  | node s => exact (facts.arena.extends_step s).shape?_eq h
  | record id ty => rfl

theorem get?_step (facts : Facts) {s : Step} {id : ExprId} (h : ∀ ty, s ≠ .record id ty) :
    (facts.step s).table.get? id = facts.table.get? id := by
  cases s with
  | node s => rfl
  | record id' ty =>
    have hne : id' ≠ id := by
      rintro rfl
      exact h ty rfl
    simp only [step, Ty.Table.record, Ty.Table.get?_insert, if_neg hne]

/-- What a number refers to stays as it is. -/
theorem shape?_run (facts : Facts) (steps : List Step) {id : ExprId}
    (h : id.index < facts.arena.size) :
    (facts.run steps).arena.shape? id = facts.arena.shape? id := by
  induction steps generalizing facts with
  | nil => rfl
  | cons s steps ih =>
    exact (ih (facts.step s) (h.trans_le (facts.size_le_step s))).trans (facts.shape?_step s h)

/-- The type of an expression stays as it is until one is recorded for it. -/
theorem get?_run (facts : Facts) {steps : List Step} {id : ExprId}
    (h : ∀ ty, .record id ty ∉ steps) :
    (facts.run steps).table.get? id = facts.table.get? id := by
  induction steps generalizing facts with
  | nil => rfl
  | cons s steps ih =>
    have hlater := ih (facts.step s) fun ty hm => h ty (List.mem_cons_of_mem s hm)
    refine hlater.trans (facts.get?_step ?_)
    rintro ty rfl
    exact h ty List.mem_cons_self

theorem agreeOn_run (facts : Facts) {steps : List Step} {call : Call}
    (hargs : ∀ id ∈ call.args, id.index < facts.arena.size)
    (hrecord : ∀ id ty, .record id ty ∈ steps →
      id ∉ call.args ∧ id ∉ call.operands facts.arena) :
    facts.context.AgreeOn (facts.run steps).context call where
  shape := by
    intro arg harg
    exact (facts.shape?_run steps (hargs arg (List.mem_of_mem_head? harg))).symm
  args := by
    intro id hid
    refine (facts.get?_run fun ty hm => ?_).symm
    exact (hrecord id ty hm).1 (List.mem_of_mem_take hid)
  operands := by
    intro id hid
    refine (facts.get?_run fun ty hm => ?_).symm
    exact (hrecord id ty hm).2 hid

end Facts

/-- The rule gives the same verdict and the same log in contexts that agree on what
it reads. So describing a file further does not change the result for calls whose
arguments were there before, as long as no type is recorded for an argument or for
an operand of a first argument. -/
theorem check_reads_footprint :
    (∀ (ctx ctx' : Context) (call : Call), ctx.AgreeOn ctx' call →
      FloatCompare.check ctx call = FloatCompare.check ctx' call) ∧
    ∀ (facts : Facts) (steps : List Facts.Step) (calls : List Call),
      (∀ call ∈ calls, ∀ id ∈ call.args, id.index < facts.arena.size) →
      (∀ id ty, .record id ty ∈ steps → ∀ call ∈ calls,
        id ∉ call.args ∧ id ∉ call.operands facts.arena) →
      ∀ l : Linter, l.run (facts.run steps).context calls = l.run facts.context calls := by
  constructor
  · intro ctx ctx' call h
    exact FloatCompare.check_congr h
  · intro facts steps calls hargs hrecord l
    refine (l.run_congr ?_).symm
    intro call hcall
    apply facts.agreeOn_run (hargs call hcall)
    intro id ty hm
    exact hrecord id ty hm call hcall

/-- A comparison that has itself and a number without a node as operands, asserted to
be true. Later that number gets a node and another expression gets a type. -/
theorem check_reads_footprint_cyclic :
    let facts : Facts := ⟨⟨#[.binary .eq ⟨0⟩ ⟨1⟩], #[⟨3, 8⟩]⟩,
      Ty.Table.empty.insert ⟨1⟩ (.basic .float64)⟩
    let other : Context := ⟨⟨#[.binary .eq ⟨0⟩ ⟨1⟩, .other], #[.unknown, .unknown]⟩,
      fun id => if id = ⟨0⟩ then none else some (.basic .float64)⟩
    let steps : List Facts.Step := [.node (.binary .notEq ⟨0⟩ ⟨7⟩),
      .record ⟨2⟩ (.basic .float32), .node (.ident "x" ⟨9, 2⟩)]
    let call : Call := ⟨⟨1, 9⟩, ⟨"Equal", "True", true⟩, "assert", [⟨0⟩]⟩
    let l : Linter := { rules := [.floatCompare] }
    facts.context.AgreeOn other call ∧
      FloatCompare.check facts.context call = FloatCompare.check other call ∧
      (∀ id ∈ call.args, id.index < facts.arena.size) ∧
      (∀ id ty, .record id ty ∈ steps → id ∉ call.args ∧ id ∉ call.operands facts.arena) ∧
      l.run (facts.run steps).context [call] = l.run facts.context [call] := by
  intro facts other steps call l
  have htypes : ∀ id : ExprId, id = ⟨0⟩ ∨ id = ⟨1⟩ →
      facts.context.types id = other.types id := by
    rintro id (rfl | rfl)
    · exact Ty.Table.get?_insert _ _ _ _
    · exact Ty.Table.get?_insert _ _ _ _
  have hagree : facts.context.AgreeOn other call := by
    refine ⟨?_, ?_, ?_⟩
    · rintro arg ⟨⟩
      rfl
    · intro id hid
      exact htypes id (.inl (by simpa [call] using hid))
    · intro id hid
      change id ∈ [⟨0⟩, ⟨1⟩] at hid
      exact htypes id (by simpa using hid)
  have hargs : ∀ id ∈ call.args, id.index < facts.arena.size := by decide
  have hrecord : ∀ id ty, .record id ty ∈ steps →
      id ∉ call.args ∧ id ∉ call.operands facts.arena := by
    intro id ty hm
    obtain ⟨rfl, -⟩ : id = ⟨2⟩ ∧ ty = .basic .float32 := by simpa [steps] using hm
    decide
  refine ⟨hagree, check_reads_footprint.1 _ _ _ hagree, hargs, hrecord, ?_⟩
  apply check_reads_footprint.2
  · simpa using hargs
  · intro id ty hm
    simpa using hrecord id ty hm

end AssertionLint
