import AssertionLint.Rule
import Mathlib.Data.List.Basic
import Mathlib.Tactic

/-!
# Which calls are reported

The verdict about a call is described without the events noted on the way to it:
by the name of the function, by the node of the first argument and by the types of
at most two expressions. Everything the description does not mention leaves the
verdict alone. The name counts through its stem; a stem that is taken from a text
says that the text is one of two.
-/

namespace AssertionLint

/-- The types of floating-point values: three predeclared ones, and every type
declared over or constrained by a floating-point type. -/
inductive Ty.Floating : Ty → Prop
  | float32 : Floating (basic .float32)
  | float64 : Floating (basic .float64)
  | untypedFloat : Floating (basic .untypedFloat)
  | named (name : String) {t : Ty} : Floating t → Floating (named name t)
  | param (name : String) {t : Ty} : Floating t → Floating (param name t)

theorem Ty.isFloat_of_floating {t : Ty} (h : t.Floating) : t.isFloat = true := by
  induction h with
  | float32 => rfl
  | float64 => rfl
  | untypedFloat => rfl
  | named name _ ih => exact ih
  | param name _ ih => exact ih

theorem Ty.floating_of_isFloat : (t : Ty) → t.isFloat = true → t.Floating
  | basic k, h => by
    rcases (Predeclared.isFloat_iff k).mp h with rfl | rfl | rfl
    · exact .float32
    · exact .float64
    · exact .untypedFloat
  | named name t, h => .named name (floating_of_isFloat t h)
  | param name t, h => .param name (floating_of_isFloat t h)

theorem Ty.isFloat_eq_true {t : Ty} : t.isFloat = true ↔ t.Floating :=
  ⟨floating_of_isFloat t, isFloat_of_floating⟩

theorem Arena.binary?_eq_some {a : Arena} {id left right : ExprId} {op : BinaryOp} :
    a.binary? id = some (op, left, right) ↔
      a.shapes[id.index]? = some (.binary op left right) := by
  unfold binary? shape?
  cases h : a.shapes[id.index]? with
  | none => simp
  | some shape => cases shape <;> simp [Shape.binary?]

namespace Context

variable (ctx : Context)

/-- An expression is floating-point if its type is known to be. -/
def Floating (id : ExprId) : Prop := ∃ t, ctx.types id = some t ∧ t.Floating

theorem isFloat_value (id : ExprId) : (ctx.isFloat id).value = true ↔ ctx.Floating id := by
  unfold isFloat Floating
  cases h : ctx.types id with
  | none => simp
  | some t => simp [Ty.isFloat_eq_true]

theorem eitherFloat_value (left right : ExprId) :
    (ctx.eitherFloat left right).value = true ↔ ctx.Floating left ∨ ctx.Floating right := by
  rw [← isFloat_value, ← isFloat_value]
  cases h : (ctx.isFloat left).value <;> simp [eitherFloat, h]

theorem isFloatComparison_value (id : ExprId) (op : BinaryOp) :
    (ctx.isFloatComparison id op).value = true ↔
      ∃ left right, ctx.arena.shapes[id.index]? = some (.binary op left right) ∧
        (ctx.Floating left ∨ ctx.Floating right) := by
  simp only [← Arena.binary?_eq_some, ← eitherFloat_value]
  unfold isFloatComparison
  cases h : ctx.arena.binary? id with
  | none => simp
  | some b =>
    obtain ⟨actual, left, right⟩ := b
    by_cases ho : actual = op
    · simp [ho]
    · simp [ho]

instance (id : ExprId) : Decidable (ctx.Floating id) := decidable_of_iff _ (ctx.isFloat_value id)

end Context

/-! ## Names of functions -/

namespace FunctionName

/-- Whether this is the function `name` or its formatting variant, by the text. -/
def Means (n : FunctionName) (name : String) : Prop := n.text = name ∨ n.text = name ++ "f"

instance (n : FunctionName) : DecidablePred n.Means := fun _ => inferInstanceAs (Decidable (_ ∨ _))

theorem ofText_append (stem : String) : ofText (stem ++ "f") = ⟨stem ++ "f", stem, true⟩ := by
  simp [ofText]

theorem ofText_of_not_suffix {text : String} (h : ¬['f'].IsSuffix text.toList) :
    ofText text = ⟨text, text, false⟩ := by
  have hlast : ¬(text.toList.getLast? == some 'f') = true := by
    rw [beq_iff_eq, List.getLast?_eq_some_iff]
    rintro ⟨cs, hcs⟩
    exact h ⟨cs, hcs.symm⟩
  rw [ofText, if_neg hlast]

/-- A name is taken apart in one of two ways. -/
theorem exists_eq_append_or (text : String) :
    (∃ stem, text = stem ++ "f") ∨ ¬['f'].IsSuffix text.toList := by
  by_cases h : ['f'].IsSuffix text.toList
  · obtain ⟨cs, hcs⟩ := h
    exact .inl ⟨String.ofList cs, String.toList_inj.mp (by simp [← hcs])⟩
  · exact .inr h

theorem isFormatting_ofText (text : String) :
    (ofText text).isFormatting = true ↔ ['f'].IsSuffix text.toList := by
  rcases exists_eq_append_or text with ⟨stem, rfl⟩ | h
  · rw [ofText_append]
    exact iff_of_true rfl ⟨stem.toList, by simp⟩
  · rw [ofText_of_not_suffix h]
    exact iff_of_false Bool.false_ne_true h

/-- Only one letter is taken off, so a name that does not end in it is the stem of
exactly two texts. -/
theorem stem_eq_iff {n : FunctionName} (hn : n = ofText n.text) {name : String}
    (hname : ¬['f'].IsSuffix name.toList) : n.stem = name ↔ n.Means name := by
  unfold Means
  generalize n.text = text at hn
  subst hn
  rcases exists_eq_append_or text with ⟨stem, rfl⟩ | h
  · rw [ofText_append]
    constructor
    · rintro rfl
      exact .inr rfl
    · rintro (h | h)
      · exact absurd ⟨stem.toList, by simp [← h]⟩ hname
      · exact String.toList_inj.mp (by simpa using congrArg String.toList h)
  · rw [ofText_of_not_suffix h]
    constructor
    · exact .inl
    · rintro (rfl | rfl)
      · rfl
      · exact absurd ⟨name.toList, by simp⟩ h

example : (ofText "Equalff").stem = "Equalf" := by decide

end FunctionName

/-- The name of an assertion that rules tell apart. -/
def Assertion.name : Assertion → String
  | equal => "Equal"
  | equalValues => "EqualValues"
  | exactly => "Exactly"
  | isTrue => "True"
  | isFalse => "False"
  | other => ""

theorem Assertion.ofName_eq_iff {a : Assertion} (ha : a ≠ other) (text : String) :
    ofName text = a ↔ text = a.name := by
  unfold ofName
  cases a <;> split_ifs <;> simp_all [name]

theorem Call.assertion_eq_iff (c : Call) {a : Assertion} (ha : a ≠ .other) :
    c.assertion = a ↔ c.function.stem = a.name :=
  Assertion.ofName_eq_iff ha _

/-- The names of the assertions of equality. -/
def equalities : List String := ["Equal", "EqualValues", "Exactly"]

theorem Call.assertion_mem_values_iff (c : Call) :
    c.assertion ∈ [.equal, .equalValues, .exactly] ↔ c.function.stem ∈ equalities := by
  have hstem := fun a : Assertion => c.assertion_eq_iff (a := a)
  simp [hstem, equalities, Assertion.name]

theorem Call.assertion_eq_isTrue_iff (c : Call) :
    c.assertion = .isTrue ↔ c.function.stem = "True" :=
  c.assertion_eq_iff nofun

theorem Call.assertion_eq_isFalse_iff (c : Call) :
    c.assertion = .isFalse ↔ c.function.stem = "False" :=
  c.assertion_eq_iff nofun

namespace FloatCompare

/-- Two values are given first and one of them is floating-point. -/
def ComparesValues (ctx : Context) (args : List ExprId) : Prop :=
  ∃ expected actual rest, args = expected :: actual :: rest ∧
    (ctx.Floating expected ∨ ctx.Floating actual)

/-- The node of the first argument is a comparison by `op`, and one of the compared
values is floating-point. -/
def AssertsComparison (ctx : Context) (args : List ExprId) (op : BinaryOp) : Prop :=
  ∃ arg rest left right, args = arg :: rest ∧
    ctx.arena.shapes[arg.index]? = some (.binary op left right) ∧
    (ctx.Floating left ∨ ctx.Floating right)

/-- The calls that compare floating-point values for equality, where `means` says which
functions are called. -/
inductive FlaggedAs (means : String → Prop) (ctx : Context) (args : List ExprId) : Prop
  | values {name : String} (known : name ∈ equalities) (called : means name)
      (compares : ComparesValues ctx args)
  | truth (called : means "True") (asserts : AssertsComparison ctx args .eq)
  | falsity (called : means "False") (asserts : AssertsComparison ctx args .notEq)

/-- The calls that compare floating-point values for equality, by the stem of the
function. -/
def Flagged (ctx : Context) (call : Call) : Prop :=
  FlaggedAs (call.function.stem = ·) ctx call.args

variable (ctx : Context)

theorem values_value (args : List ExprId) :
    (match args with
      | expected :: actual :: _ => ctx.eitherFloat expected actual
      | _ => pure false).value = true ↔ ComparesValues ctx args := by
  rcases args with _ | ⟨expected, _ | ⟨actual, rest⟩⟩
  · simp [ComparesValues]
  · simp [ComparesValues]
  · simp [ComparesValues, ctx.eitherFloat_value]

theorem comparison_value (args : List ExprId) (op : BinaryOp) :
    (match args with
      | arg :: _ => ctx.isFloatComparison arg op
      | [] => pure false).value = true ↔ AssertsComparison ctx args op := by
  rcases args with _ | ⟨arg, rest⟩
  · simp [AssertsComparison]
  · simp [AssertsComparison, ctx.isFloatComparison_value]

theorem flags_value_of_assertion (call : Call) : (flags ctx call).value = true ↔
    call.assertion ∈ [.equal, .equalValues, .exactly] ∧ ComparesValues ctx call.args ∨
      call.assertion = .isTrue ∧ AssertsComparison ctx call.args .eq ∨
      call.assertion = .isFalse ∧ AssertsComparison ctx call.args .notEq := by
  unfold flags
  cases call.assertion with
  | equal | equalValues | exactly =>
    simp only [List.mem_cons, reduceCtorEq, true_or, or_true, true_and, false_and, or_false]
    exact values_value ctx call.args
  | isTrue =>
    simp only [List.mem_cons, List.not_mem_nil, reduceCtorEq, or_false, false_and, true_and,
      false_or]
    exact comparison_value ctx call.args .eq
  | isFalse =>
    simp only [List.mem_cons, List.not_mem_nil, reduceCtorEq, or_false, false_and, true_and,
      false_or]
    exact comparison_value ctx call.args .notEq
  | other => simp

theorem flaggedAs_iff {means : String → Prop} {args : List ExprId} :
    FlaggedAs means ctx args ↔
      (∃ name ∈ equalities, means name) ∧ ComparesValues ctx args ∨
        means "True" ∧ AssertsComparison ctx args .eq ∨
        means "False" ∧ AssertsComparison ctx args .notEq := by
  constructor
  · intro h
    cases h with
    | values known called compares => exact .inl ⟨⟨_, known, called⟩, compares⟩
    | truth called asserts => exact .inr (.inl ⟨called, asserts⟩)
    | falsity called asserts => exact .inr (.inr ⟨called, asserts⟩)
  · rintro (⟨⟨name, known, called⟩, compares⟩ | ⟨called, asserts⟩ | ⟨called, asserts⟩)
    · exact .values known called compares
    · exact .truth called asserts
    · exact .falsity called asserts

instance (args : List ExprId) : Decidable (ComparesValues ctx args) :=
  decidable_of_iff _ (values_value ctx args)

instance (args : List ExprId) (op : BinaryOp) : Decidable (AssertsComparison ctx args op) :=
  decidable_of_iff _ (comparison_value ctx args op)

instance (means : String → Prop) [DecidablePred means] (args : List ExprId) :
    Decidable (FlaggedAs means ctx args) :=
  decidable_of_iff _ (flaggedAs_iff ctx).symm

instance (call : Call) : Decidable (Flagged ctx call) :=
  inferInstanceAs (Decidable (FlaggedAs _ ctx call.args))

/-- The verdict of the rule is its description. -/
theorem flags_value (call : Call) : (flags ctx call).value = true ↔ Flagged ctx call := by
  rw [flags_value_of_assertion, call.assertion_mem_values_iff, call.assertion_eq_isTrue_iff,
    call.assertion_eq_isFalse_iff, Flagged, flaggedAs_iff]
  simp

theorem check_value (call : Call) :
    (check ctx call).value = if Flagged ctx call then some (finding call) else none := by
  by_cases h : Flagged ctx call
  · have hv := (flags_value ctx call).mpr h
    simp [check, hv, h]
  · have hv : (flags ctx call).value = false := by
      rw [← Bool.not_eq_true, flags_value]
      exact h
    simp [check, hv, h]

/-! ## Calls named by a text -/

/-- If the parts of its name come from the text, a call is flagged by the text. -/
theorem flagged_iff_means {call : Call} (h : call.function = .ofText call.function.text) :
    Flagged ctx call ↔ FlaggedAs call.function.Means ctx call.args := by
  have hmeans : ∀ name, ¬['f'].IsSuffix name.toList →
      (call.function.stem = name ↔ call.function.Means name) := fun name hname =>
    FunctionName.stem_eq_iff h hname
  have hvalues : (∃ name ∈ equalities, call.function.stem = name) ↔
      ∃ name ∈ equalities, call.function.Means name := by
    apply exists_congr
    intro name
    apply and_congr_right
    intro hname
    apply hmeans
    revert name
    decide
  rw [Flagged, flaggedAs_iff, flaggedAs_iff, hvalues, hmeans "True" (by decide),
    hmeans "False" (by decide)]

/-- The finding about a flagged call, in full. -/
def proposal (call : Call) : Finding :=
  let f := if ['f'].IsSuffix call.function.text.toList then "f" else ""
  { rule := "float-compare"
    message := "use " ++ call.receiver ++ ".InEpsilon" ++ f ++ " (or InDelta" ++ f ++ ")"
    span := call.span
    fixes := [] }

theorem finding_eq_proposal {call : Call} (h : call.function = .ofText call.function.text) :
    finding call = proposal call := by
  have hf : call.function.isFormatting = true ↔ ['f'].IsSuffix call.function.text.toList := by
    conv_lhs => rw [h]
    exact FunctionName.isFormatting_ofText _
  simp only [finding, proposal, Call.finding, message, name, hf]

end FloatCompare

end AssertionLint
