import AssertionLint.Report
import AssertionLint.Proofs.Separators
import Mathlib.Data.List.Basic

/-!
# Colours on a terminal

A coloured report differs from a plain one by three escape codes. Each of them begins
with the escape character, which stands nowhere else as long as no part of the report
has it. So deleting the codes can go wrong neither inside a part nor where two parts
meet, and it leaves the plain report, however much the parts look like codes without
their first character.
-/

namespace AssertionLint

/-- No text that a report shows of the finding has the escape character. -/
structure Finding.EscapeFree (f : Finding) : Prop where
  rule : '\x1b' ∉ f.rule.toList
  message : '\x1b' ∉ f.message.toList
  fixes : ∀ fix ∈ f.fixes, '\x1b' ∉ fix.message.toList

namespace Report

/-- A text without the escape codes for bold yellow, bold and reset. -/
def withoutCodes : List Char → List Char
  | '\x1b' :: '[' :: '1' :: ';' :: '3' :: '3' :: 'm' :: rest => withoutCodes rest
  | '\x1b' :: '[' :: '1' :: 'm' :: rest => withoutCodes rest
  | '\x1b' :: '[' :: '0' :: 'm' :: rest => withoutCodes rest
  | c :: rest => c :: withoutCodes rest
  | [] => []

theorem withoutCodes_cons {c : Char} (hc : c ≠ '\x1b') (rest : List Char) :
    withoutCodes (c :: rest) = c :: withoutCodes rest := by
  rw [withoutCodes.eq_def]
  split <;> simp_all

theorem withoutCodes_append {cs : List Char} (h : '\x1b' ∉ cs) (rest : List Char) :
    withoutCodes (cs ++ rest) = cs ++ withoutCodes rest := by
  induction cs with
  | nil => rfl
  | cons c cs ih =>
    rw [List.mem_cons, not_or] at h
    rw [List.cons_append, withoutCodes_cons (Ne.symm h.1), ih h.2, List.cons_append]

/-! ## Parts of a report -/

/-- Without escape codes the first text is the second one, whatever follows it, and
nothing is left that a code could begin with. -/
structure ShowsAs (coloured plain : String) : Prop where
  without (rest : List Char) :
    withoutCodes (coloured.toList ++ rest) = plain.toList ++ withoutCodes rest
  escapeFree : '\x1b' ∉ plain.toList

namespace ShowsAs

theorem refl {text : String} (h : '\x1b' ∉ text.toList) : ShowsAs text text :=
  ⟨withoutCodes_append h, h⟩

theorem append {coloured coloured' plain plain' : String} (h : ShowsAs coloured plain)
    (h' : ShowsAs coloured' plain') : ShowsAs (coloured ++ coloured') (plain ++ plain') where
  without rest := by
    rw [String.toList_append, String.toList_append, List.append_assoc, h.without, h'.without,
      List.append_assoc]
  escapeFree := by simp [h.escapeFree, h'.escapeFree]

theorem join {α : Type} {coloured plain : α → String} {as : List α}
    (h : ∀ a ∈ as, ShowsAs (coloured a) (plain a)) :
    ShowsAs (String.join (as.map coloured)) (String.join (as.map plain)) := by
  induction as with
  | nil => exact refl List.not_mem_nil
  | cons a as ih =>
    rw [List.forall_mem_cons] at h
    simpa using h.1.append (ih h.2)

theorem decimal (n : ℕ) : ShowsAs (toString n) (toString n) :=
  refl (Text.notMem_decimal rfl n)

theorem code {code : String} (h : code ∈ [ruleColour, bold, reset]) : ShowsAs code "" where
  without rest := by
    simp only [List.mem_cons, List.not_mem_nil, or_false] at h
    rcases h with rfl | rfl | rfl <;> rfl
  escapeFree := List.not_mem_nil

end ShowsAs

/-- The same report without colours. -/
def plain (r : Report) : Report := { r with coloured := false }

section Parts

variable (r : Report)

theorem showsAs_paint {code text : String} (hcode : code ∈ [ruleColour, bold, reset])
    (htext : ShowsAs text text) : ShowsAs (r.paint code text) (r.plain.paint code text) := by
  have hplain : r.plain.paint code text = "" ++ text ++ "" := by simp [paint, plain]
  rw [hplain, paint]
  split
  · exact ((ShowsAs.code hcode).append htext).append (.code (by simp))
  · simpa using htext

theorem showsAs_findingText (hpath : '\x1b' ∉ r.path.toList) {f : Finding} (hf : f.EscapeFree) :
    ShowsAs (r.findingText f) (r.plain.findingText f) := by
  let p := r.positionOf f
  have hcolon : ShowsAs ":" ":" := .refl (by decide)
  have hblank : ShowsAs ": " ": " := .refl (by decide)
  have hend : ShowsAs "\n" "\n" := .refl (by decide)
  have hplace := ((((ShowsAs.refl hpath).append hcolon).append (.decimal p.line.toNat)).append
    hcolon).append (.decimal p.column.toNat)
  have hrule : ShowsAs (r.paint ruleColour f.rule) (r.plain.paint ruleColour f.rule) :=
    r.showsAs_paint (by simp) (.refl hf.rule)
  have hfixes : ∀ fix ∈ f.fixes, ShowsAs (fixText fix) (fixText fix) := by
    intro fix hfix
    exact .refl (by simp [fixText, hf.fixes fix hfix])
  exact (((((hplace.append hblank).append hrule).append hblank).append
    (.refl hf.message)).append hend).append (.join hfixes)

theorem showsAs_summaryText (count : ℕ) :
    ShowsAs (r.summaryText count) (r.plain.summaryText count) := by
  rw [summaryText, summaryText]
  split
  · exact .refl List.not_mem_nil
  · have hissue : ShowsAs " issue" " issue" := .refl (by decide)
    have hplural : '\x1b' ∉ (if count = 1 then "" else "s").toList := by
      split <;> decide
    have hfound : ShowsAs " found" " found" := .refl (by decide)
    have htext := (((ShowsAs.decimal count).append hissue).append (.refl hplural)).append hfound
    exact (r.showsAs_paint (by simp) htext).append (.refl (by decide))

end Parts

/-! ## Whole reports -/

/-- No text that is given in the step has the escape character. -/
def Step.EscapeFree : Step → Prop
  | finding f => f.EscapeFree
  | findings fs => ∀ f ∈ fs, f.EscapeFree
  | summary _ => True
  | flush => True

/-- All that was written to an output. -/
def Output.text (out : Output) : String := String.join out.written

theorem Output.text_step (r : Report) (out : Output) (s : Step) :
    (out.step r s).text = out.text ++ if out.broken then "" else r.stepText s := by
  simp [text, step]

section Run

variable {r : Report} (hpath : '\x1b' ∉ r.path.toList)
include hpath

theorem showsAs_stepText {s : Step} (hs : s.EscapeFree) :
    ShowsAs (r.stepText s) (r.plain.stepText s) := by
  cases s with
  | finding f => exact r.showsAs_findingText hpath hs
  | findings fs => exact .join fun f hf => r.showsAs_findingText hpath (hs f hf)
  | summary count => exact r.showsAs_summaryText count
  | flush => exact .refl List.not_mem_nil

theorem showsAs_run {out out' : Output} (hbroken : out.broken = out'.broken)
    (htext : ShowsAs out.text out'.text) {steps : List Step} (hsteps : ∀ s ∈ steps, s.EscapeFree) :
    ShowsAs (Output.run r out steps).text (Output.run r.plain out' steps).text := by
  induction steps generalizing out out' with
  | nil => exact htext
  | cons s steps ih =>
    rw [List.forall_mem_cons] at hsteps
    refine ih hbroken ?_ hsteps.2
    rw [Output.text_step, Output.text_step, hbroken]
    apply htext.append
    split
    · exact .refl List.not_mem_nil
    · exact showsAs_stepText hpath hsteps.1

end Run

/-- Whatever steps are asked for, deleting the three escape codes from what a report
writes gives what the report without colours writes, in which nothing is left that a code
could begin with. -/
theorem withoutCodes_run (path source : String) (steps : List Step) (broken : Bool)
    (mode mode' : ColourMode) (terminal terminal' : Bool) (hpath : '\x1b' ∉ path.toList)
    (hsteps : ∀ s ∈ steps, s.EscapeFree) (hplain : mode'.coloured terminal' = false) :
    let written := fun (mode : ColourMode) (terminal : Bool) =>
      (Output.run ((ofSource path source).withColours mode terminal) { broken } steps).text.toList
    withoutCodes (written mode terminal) = written mode' terminal' ∧
      '\x1b' ∉ written mode' terminal' := by
  intro written
  have hrun : ShowsAs
      (Output.run ((ofSource path source).withColours mode terminal) { broken } steps).text
      (Output.run ((ofSource path source).withColours mode' terminal') { broken } steps).text := by
    rw [withColours, withColours, hplain]
    exact showsAs_run hpath rfl (.refl List.not_mem_nil) hsteps
  exact ⟨by simpa [withoutCodes] using hrun.without [], hrun.escapeFree⟩

/-- A message and a fix that go on like escape codes. -/
theorem withoutCodes_run_bracket :
    let f : Finding := ⟨"float-compare", "[0m[1;33m", ⟨1, 0⟩, [⟨"[1m", []⟩]⟩
    let steps : List Step := [.findings [f], .flush, .summary 1]
    let written := fun (mode : ColourMode) (terminal : Bool) =>
      (Output.run ((ofSource "m.go" "é").withColours mode terminal) {} steps).text.toList
    '\x1b' ∉ "m.go".toList ∧ (∀ s ∈ steps, s.EscapeFree) ∧
      ColourMode.auto.coloured false = false ∧
      written .always false = ("m.go:1:1: \x1b[1;33mfloat-compare\x1b[0m: [0m[1;33m\n" ++
        "  = fix: [1m\n\x1b[1m1 issue found\x1b[0m\n").toList ∧
      withoutCodes (written .always false) = written .auto false := by
  intro f steps written
  have hf : f.EscapeFree := ⟨by decide, by decide, by decide⟩
  have hpath : '\x1b' ∉ "m.go".toList := by decide
  have hsteps : ∀ s ∈ steps, s.EscapeFree := by
    simp [steps, Step.EscapeFree, hf]
  refine ⟨hpath, hsteps, rfl, ?_,
    (withoutCodes_run "m.go" "é" steps false .always .auto false false hpath hsteps rfl).1⟩
  simp only [written, steps, f]
  decide +kernel

end Report

end AssertionLint
