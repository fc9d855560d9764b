import AssertionLint.Proofs.LinterResult
import AssertionLint.Proofs.PlaceOrder
import AssertionLint.Proofs.ReportLines

/-!
# Reports are in reading order

A queue hands findings out by the start of their span, and the place printed for
an offset only moves forward as the offset grows. So the places in a report never
go back, wherever the spans lie.
-/

namespace AssertionLint

theorem Finding.start_le_of_key_le {f g : Finding} (h : f.key ≤ g.key) :
    f.span.start ≤ g.span.start := by
  rw [UInt32.le_iff_toNat_le]
  exact Prod.Lex.monotone_fst _ _ h

theorem Queue.mem_of_mem_arrange {c : Policy} {p : List Finding} {f : Finding}
    (h : f ∈ arrange c p) : f ∈ p := by
  have hclass : f ∈ Finding.withKey f.key (arrange c p) := Finding.mem_withKey.mpr ⟨h, rfl⟩
  exact (Finding.mem_withKey.mp ((withKey_arrange_isPrefix c p f.key).mem hclass)).1

namespace Report

theorem places_pairwise (path : String) {source : String}
    (hsource : source.utf8ByteSize < UInt32.size - 1) {fs : List Finding}
    (h : Finding.Increasing fs) :
    (fs.map fun f => ((ofSource path source).positionOf f).place).Pairwise (· ≤ ·) := by
  apply List.pairwise_map.mpr
  apply h.imp
  intro f g hfg
  exact LineIndex.place_position_le hsource (Finding.start_le_of_key_le hfg)

/-- Without fixes a report has a single line for each finding. -/
theorem findingsText_of_fixes {r : Report} (hr : r.coloured = false) {fs : List Finding}
    (h : ∀ f ∈ fs, f.fixes = []) :
    r.findingsText fs = String.join (fs.map fun f => headLine r.path (r.positionOf f) f) := by
  rw [findingsText]
  congr 1
  apply List.map_congr_left
  intro f hf
  rw [findingText_eq hr, h f hf]
  exact String.append_empty

end Report

namespace Linter

theorem fixes_of_mem_run {l : Linter} {ctx : Context} {calls : List Call} {f : Finding}
    (h : f ∈ (l.run ctx calls).value) : f.fixes = [] := by
  rw [run_value] at h
  exact fixes_of_mem_found (Queue.mem_of_mem_arrange h)

/-- What a linter for a valid selection finds is reported in one line each, at
places that never go back, whatever the spans of the calls are. -/
theorem report_places_pairwise (path source : String)
    (hsource : source.utf8ByteSize < UInt32.size - 1) (s : Selection)
    (h : s.validate = .ok ()) :
    ∃ l, ofSelection s = .ok l ∧ ∀ (c : Queue.Policy) (ctx : Context) (calls : List Call),
      let positionOf (f : Finding) := (LineIndex.ofSource source).position source f.span.start
      let out := ((l.value.withPolicy c).run ctx calls).value
      (Report.Output.run (.ofSource path source) {} [.findings out]).written =
          [String.join (out.map fun f => Report.headLine path (positionOf f) f)] ∧
        (out.map fun f => (positionOf f).place).Pairwise (· ≤ ·) := by
  obtain ⟨l, hl, -, -⟩ := ofSelection_of_validate h
  refine ⟨l, hl, ?_⟩
  intro c ctx calls positionOf out
  have hprinted : (Report.ofSource path source).findingsText out =
      String.join (out.map fun f => Report.headLine path (positionOf f) f) :=
    Report.findingsText_of_fixes rfl fun f => fixes_of_mem_run
  have hsorted : Finding.Increasing out := by
    simp only [out, run_value]
    exact (Queue.arrange_delivery _ _).increasing
  refine ⟨?_, Report.places_pairwise path hsource hsorted⟩
  rw [← hprinted]
  rfl

/-- A call past the end of the source, given before one inside its first character. -/
theorem report_places_pairwise_past_end :
    let past : Call := .ofName ⟨90, 10⟩ "Equal" "assert" [⟨0⟩, ⟨1⟩]
    let inside : Call := ⟨⟨1, 3⟩, ⟨"Exactlyf", "Equal", false⟩, "require", [⟨1⟩, ⟨0⟩]⟩
    let ctx : Context := ⟨.empty, fun _ => some (.basic .float32)⟩
    let c : Queue.Policy := { limit := 5, dropRepeats := true }
    let positionOf (f : Finding) := (LineIndex.ofSource "é\nb").position "é\nb" f.span.start
    "é\nb".utf8ByteSize < UInt32.size - 1 ∧ (default : Selection).validate = .ok () ∧
      ∃ l, ofSelection default = .ok l ∧
        let out := ((l.value.withPolicy c).run ctx [past, inside]).value
        (Report.Output.run (.ofSource "a_test.go" "é\nb") {} [.findings out]).written =
            [String.join (out.map fun f => Report.headLine "a_test.go" (positionOf f) f)] ∧
          (out.map fun f => (positionOf f).place).Pairwise (· ≤ ·) := by
  intro past inside ctx c positionOf
  have hsource : "é\nb".utf8ByteSize < UInt32.size - 1 := by decide
  have hvalid : (default : Selection).validate = .ok () := by decide
  obtain ⟨l, hl, hrun⟩ := report_places_pairwise "a_test.go" "é\nb" hsource default hvalid
  exact ⟨hsource, hvalid, l, hl, hrun c ctx [past, inside]⟩

end Linter

end AssertionLint
