import AssertionLint.Proofs.Verdict

/-!
# Which values a call compares

An assertion of equality compares its first two arguments. An assertion of truth
compares the operands of its first argument if that is an equality of the right
polarity. All other calls compare nothing. The rule asks whether one of the
compared values is floating-point and asks nothing about a call that compares
nothing, so its verdict and its log are those of this one question.
-/

namespace AssertionLint

namespace Context

variable {ctx : Context} {id left right : ExprId} {op : BinaryOp}

theorem isFloatComparison_of_shape
    (h : ctx.arena.shapes[id.index]? = some (.binary op left right)) :
    ctx.isFloatComparison id op = ctx.eitherFloat left right := by
  rw [isFloatComparison, Arena.binary?_eq_some.mpr h]
  simp only [if_pos]

theorem isFloatComparison_of_shape_ne
    (h : ∀ left right, ctx.arena.shapes[id.index]? ≠ some (.binary op left right)) :
    ctx.isFloatComparison id op = pure false := by
  rw [isFloatComparison]
  cases hb : ctx.arena.binary? id with
  | none => rfl
  | some b =>
    obtain ⟨actual, left, right⟩ := b
    have hop : actual ≠ op := by
      rintro rfl
      exact h left right (Arena.binary?_eq_some.mp hb)
    simp only [if_neg hop]

end Context

namespace FloatCompare

/-- `left` and `right` are the values that the call compares. -/
inductive Compares (a : Arena) (call : Call) (left right : ExprId) : Prop
  | values {rest : List ExprId} (called : call.function.stem ∈ equalities)
      (args : call.args = left :: right :: rest)
  | truth {arg : ExprId} {rest : List ExprId} (called : call.function.stem = "True")
      (args : call.args = arg :: rest)
      (node : a.shapes[arg.index]? = some (.binary .eq left right))
  | falsity {arg : ExprId} {rest : List ExprId} (called : call.function.stem = "False")
      (args : call.args = arg :: rest)
      (node : a.shapes[arg.index]? = some (.binary .notEq left right))

variable {ctx : Context} {call : Call}

theorem flags_of_compares {left right : ExprId} (h : Compares ctx.arena call left right) :
    flags ctx call = ctx.eitherFloat left right := by
  cases h with
  | values called args =>
    have hvalues := call.assertion_mem_values_iff.mpr called
    simp only [List.mem_cons, List.not_mem_nil, or_false] at hvalues
    rcases hvalues with ha | ha | ha <;> simp only [flags, ha, args]
  | truth called args node =>
    have ha := call.assertion_eq_isTrue_iff.mpr called
    simp only [flags, ha, args, Context.isFloatComparison_of_shape node]
  | falsity called args node =>
    have ha := call.assertion_eq_isFalse_iff.mpr called
    simp only [flags, ha, args, Context.isFloatComparison_of_shape node]

theorem flags_of_not_compares (h : ∀ left right, ¬Compares ctx.arena call left right) :
    flags ctx call = pure false := by
  unfold flags
  cases ha : call.assertion with
  | equal | equalValues | exactly =>
    have called := call.assertion_mem_values_iff.mp (by simp [ha])
    rcases hargs : call.args with _ | ⟨left, _ | ⟨right, rest⟩⟩
    · rfl
    · rfl
    · exact absurd (.values called hargs) (h left right)
  | isTrue =>
    have called := call.assertion_eq_isTrue_iff.mp ha
    rcases hargs : call.args with _ | ⟨arg, rest⟩
    · rfl
    · apply Context.isFloatComparison_of_shape_ne
      intro left right node
      exact h left right (.truth called hargs node)
  | isFalse =>
    have called := call.assertion_eq_isFalse_iff.mp ha
    rcases hargs : call.args with _ | ⟨arg, rest⟩
    · rfl
    · apply Context.isFloatComparison_of_shape_ne
      intro left right node
      exact h left right (.falsity called hargs node)
  | other => rfl

theorem flagged_iff_of_compares {left right : ExprId} (h : Compares ctx.arena call left right) :
    Flagged ctx call ↔ ctx.Floating left ∨ ctx.Floating right := by
  rw [← flags_value, flags_of_compares h, ctx.eitherFloat_value]

end FloatCompare

end AssertionLint
