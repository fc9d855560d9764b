import AssertionLint.Report
import AssertionLint.Proofs.Separators
import Mathlib.Data.List.Basic
import Mathlib.Tactic

/-!
# Reading a report back

Every part of a line ends at the first occurrence of a character that it does not
have: the two numbers and the name of the rule at a colon, a message at the end
of its line. A line that begins with a blank belongs to a fix, any other one to a
finding. So two lists of findings that are reported by the same text show the
same, however much their messages look like parts of a report.
-/

namespace AssertionLint

/-- The name of the rule has no colon, and no message goes over the end of its
line. -/
structure Finding.Printable (f : Finding) : Prop where
  rule : ':' ∉ f.rule.toList
  message : '\n' ∉ f.message.toList
  fixes : ∀ fix ∈ f.fixes, '\n' ∉ fix.message.toList

namespace Report

/-- The line for a finding at a place, without colours. -/
def headLine (path : String) (p : Position) (f : Finding) : String :=
  path ++ ":" ++ toString p.line.toNat ++ ":" ++ toString p.column.toNat ++ ": " ++ f.rule ++
    ": " ++ f.message ++ "\n"

/-- The lines for the fixes of a finding. -/
def fixLines (fixes : List Fix) : String := String.join (fixes.map fixText)

theorem findingText_eq {r : Report} (hr : r.coloured = false) (f : Finding) :
    r.findingText f = headLine r.path (r.positionOf f) f ++ fixLines f.fixes := by
  simp [findingText, headLine, fixLines, paint, hr]

theorem headLine_toList (path : String) (p : Position) (f : Finding) :
    (headLine path p f).toList =
      path.toList ++ ':' :: ((toString p.line.toNat).toList ++ ':' ::
        ((toString p.column.toNat).toList ++ ':' :: ' ' ::
          (f.rule.toList ++ ':' :: ' ' :: (f.message.toList ++ ['\n'])))) := by
  simp [headLine]

/-! ## Cutting a report into its parts -/

/-- A line for a finding at the beginning of a text can be told from what follows. -/
theorem headLine_append_inj {path : String} {p q : Position} {f g : Finding}
    (hf : f.Printable) (hg : g.Printable) {us vs : List Char}
    (h : (headLine path p f).toList ++ us = (headLine path q g).toList ++ vs) :
    p = q ∧ f.rule = g.rule ∧ f.message = g.message ∧ us = vs := by
  simp only [headLine_toList, List.append_assoc, List.cons_append, List.nil_append,
    List.append_cancel_left_eq, List.cons.injEq, true_and] at h
  obtain ⟨hline, h⟩ :=
    Text.append_cons_inj (Text.notMem_decimal rfl _) (Text.notMem_decimal rfl _) h
  obtain ⟨hcolumn, h⟩ :=
    Text.append_cons_inj (Text.notMem_decimal rfl _) (Text.notMem_decimal rfl _) h
  obtain ⟨hrule, h⟩ := Text.append_cons_inj hf.rule hg.rule (List.cons.inj h).2
  obtain ⟨hmessage, hrest⟩ := Text.append_cons_inj hf.message hg.message (List.cons.inj h).2
  refine ⟨?_, String.toList_inj.mp hrule, String.toList_inj.mp hmessage, hrest⟩
  cases p
  cases q
  rw [Position.mk.injEq]
  exact ⟨UInt32.toNat_inj.mp (Text.decimal_inj hline),
    UInt32.toNat_inj.mp (Text.decimal_inj hcolumn)⟩

theorem fixLines_cons_toList (fix : Fix) (fixes : List Fix) :
    (fixLines (fix :: fixes)).toList =
      "  = fix: ".toList ++ (fix.message.toList ++ '\n' :: (fixLines fixes).toList) := by
  simp [fixLines, fixText, String.toList_join]

/-- The lines for fixes end where a line does not begin with a blank. -/
theorem fixLines_append_inj {fixes fixes' : List Fix}
    (hf : ∀ fix ∈ fixes, '\n' ∉ fix.message.toList)
    (hf' : ∀ fix ∈ fixes', '\n' ∉ fix.message.toList) {us vs : List Char}
    (hu : us.head? ≠ some ' ') (hv : vs.head? ≠ some ' ')
    (h : (fixLines fixes).toList ++ us = (fixLines fixes').toList ++ vs) :
    fixes.map Fix.message = fixes'.map Fix.message ∧ us = vs := by
  induction fixes generalizing fixes' with
  | nil =>
    cases fixes' with
    | nil => exact ⟨rfl, h⟩
    | cons fix' fixes' =>
      change us = _ at h
      rw [h, fixLines_cons_toList] at hu
      exact absurd rfl hu
  | cons fix fixes ih =>
    cases fixes' with
    | nil =>
      change _ = vs at h
      rw [← h, fixLines_cons_toList] at hv
      exact absurd rfl hv
    | cons fix' fixes' =>
      simp only [fixLines_cons_toList, List.append_assoc, List.append_cancel_left_eq,
        List.cons_append] at h
      obtain ⟨hmessage, h⟩ :=
        Text.append_cons_inj (hf fix List.mem_cons_self) (hf' fix' List.mem_cons_self) h
      obtain ⟨hrest, htail⟩ := ih (fun x hx => hf x (List.mem_cons_of_mem fix hx))
        (fun x hx => hf' x (List.mem_cons_of_mem fix' hx)) h
      rw [List.map_cons, List.map_cons, hrest, String.toList_inj.mp hmessage]
      exact ⟨rfl, htail⟩

/-! ## Whole reports -/

theorem findingsText_cons_toList {r : Report} (hr : r.coloured = false) (f : Finding)
    (fs : List Finding) :
    (r.findingsText (f :: fs)).toList =
      (headLine r.path (r.positionOf f) f).toList ++
        ((fixLines f.fixes).toList ++ (r.findingsText fs).toList) := by
  simp [findingsText, String.toList_join, findingText_eq hr]

/-- What follows the lines for a finding is no line for a fix. -/
theorem head?_findingsText {r : Report} (hr : r.coloured = false)
    (hpath : r.path.toList.head? ≠ some ' ') (fs : List Finding) :
    (r.findingsText fs).toList.head? ≠ some ' ' := by
  cases fs with
  | nil => simp [findingsText, String.join]
  | cons f fs =>
    rw [findingsText_cons_toList hr, headLine_toList]
    cases hp : r.path.toList with
    | nil => simp
    | cons c cs => simpa [hp] using hpath

/-- The findings are alike in all that a report on a source shows of them. -/
structure ShownAlike (source : String) (f g : Finding) : Prop where
  position : (LineIndex.ofSource source).position source f.span.start =
    (LineIndex.ofSource source).position source g.span.start
  rule : f.rule = g.rule
  message : f.message = g.message
  fixes : f.fixes.map Fix.message = g.fixes.map Fix.message

/-- The text of a report without colours tells how many findings there are and
what it shows of each. The path may hold anything, even the end of a line, as long
as a line that begins with it does not look like one for a fix. -/
theorem shownAlike_of_findingsText_eq (path source : String)
    (hpath : path.toList.head? ≠ some ' ') (fs gs : List Finding)
    (hfs : ∀ f ∈ fs, f.Printable) (hgs : ∀ g ∈ gs, g.Printable)
    (h : (ofSource path source).findingsText fs = (ofSource path source).findingsText gs) :
    List.Forall₂ (ShownAlike source) fs gs := by
  have hr : (ofSource path source).coloured = false := rfl
  -- A text is empty exactly if there are no findings.
  have hempty : ∀ f fs, (ofSource path source).findingsText (f :: fs) ≠ "" := by
    intro f fs h
    have hchars := congrArg String.toList h
    rw [findingsText_cons_toList hr, headLine_toList] at hchars
    simp at hchars
  induction fs generalizing gs with
  | nil =>
    cases gs with
    | nil => exact .nil
    | cons g gs => exact absurd h.symm (hempty g gs)
  | cons f fs ih =>
    cases gs with
    | nil => exact absurd h (hempty f fs)
    | cons g gs =>
      have hchars := congrArg String.toList h
      rw [findingsText_cons_toList hr, findingsText_cons_toList hr] at hchars
      obtain ⟨hplace, hrule, hmessage, hchars⟩ :=
        headLine_append_inj (hfs f List.mem_cons_self) (hgs g List.mem_cons_self) hchars
      obtain ⟨hfixes, hchars⟩ :=
        fixLines_append_inj (hfs f List.mem_cons_self).fixes (hgs g List.mem_cons_self).fixes
          (head?_findingsText hr hpath fs) (head?_findingsText hr hpath gs) hchars
      refine .cons ⟨hplace, hrule, hmessage, hfixes⟩ (ih gs ?_ ?_ (String.toList_inj.mp hchars))
      · exact fun x hx => hfs x (List.mem_cons_of_mem f hx)
      · exact fun x hx => hgs x (List.mem_cons_of_mem g hx)

/-- Two findings at the bytes of one character, with a message that looks like the
beginning of a line and fixes that differ in their edits alone. -/
theorem shownAlike_of_findingsText_eq_inside_character :
    let f : Finding := ⟨"float-compare", "x.go:1:1: y", ⟨0, 9⟩, [⟨"  = fix: z", []⟩]⟩
    let g : Finding := ⟨"float-compare", "x.go:1:1: y", ⟨1, 0⟩,
      [⟨"  = fix: z", [⟨⟨4, 4⟩, "z"⟩]⟩]⟩
    let r := ofSource "x.go" "é"
    "x.go".toList.head? ≠ some ' ' ∧ (∀ x ∈ [f], x.Printable) ∧ (∀ x ∈ [g], x.Printable) ∧
      r.findingsText [f] = r.findingsText [g] ∧ List.Forall₂ (ShownAlike "é") [f] [g] := by
  intro f g r
  have hpath : "x.go".toList.head? ≠ some ' ' := by decide
  have hf : ∀ x ∈ [f], x.Printable := by
    rintro x hx
    obtain rfl := List.mem_singleton.mp hx
    exact ⟨by decide, by decide, by decide⟩
  have hg : ∀ x ∈ [g], x.Printable := by
    rintro x hx
    obtain rfl := List.mem_singleton.mp hx
    exact ⟨by decide, by decide, by decide⟩
  have hplace : r.positionOf f = r.positionOf g := by cbv
  have htext : r.findingsText [f] = r.findingsText [g] := by
    simp only [findingsText, List.map_cons, List.map_nil, findingText_eq (r := r) rfl, hplace]
    rfl
  exact ⟨hpath, hf, hg, htext, shownAlike_of_findingsText_eq _ _ hpath _ _ hf hg htext⟩

end Report

end AssertionLint
