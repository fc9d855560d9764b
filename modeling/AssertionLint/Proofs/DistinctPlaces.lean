import AssertionLint.Proofs.PlaceOrder

/-!
# Every boundary has a place of its own

A scan that reads on leaves every place behind, so two boundaries of a text never
share a place. A place tells an offset up to rounding, and nothing else is lost.
All lines are reached, since a scan enters a line at its first column and goes on
to the next one at a line feed.
-/

namespace AssertionLint

theorem Position.place_inj {p q : Position} : p.place = q.place ↔ p = q := by
  constructor
  · intro h
    obtain ⟨hline, hcolumn⟩ := Prod.ext_iff.mp (toLex.injective h)
    cases p
    cases q
    exact (Position.mk.injEq ..).mpr ⟨UInt32.toNat_inj.mp hline, UInt32.toNat_inj.mp hcolumn⟩
  · rintro rfl
    rfl

namespace Utf8

/-- A byte position between two characters of a text or at one of its ends. -/
def Boundary (cs : List Char) (n : ℕ) : Prop :=
  ∃ part : List Char, part.IsPrefix cs ∧ size part = n

/-- A boundary belongs to a single leading part. -/
theorem eq_of_size_eq {cs part part' : List Char} (h : part.IsPrefix cs)
    (h' : part'.IsPrefix cs) (hsize : size part = size part') : part = part' := by
  have hend := endsAt_of_isPrefix h
  have hend' := endsAt_of_isPrefix h'
  have hle := hend.isPrefix_of_le hend' hsize.le
  have hge := hend'.isPrefix_of_le hend hsize.ge
  exact hle.eq_of_length (le_antisymm hle.length_le hge.length_le)

/-- Offsets inside the first character round down to the beginning. -/
theorem endsAt_nil {c : Char} {cs : List Char} {n : ℕ} (h : n < c.utf8Size) :
    EndsAt (c :: cs) n [] := by
  refine ⟨List.nil_prefix, Nat.zero_le n, ?_⟩
  intro part hpart hsize
  cases part with
  | nil => exact le_rfl
  | cons d part =>
    obtain rfl := (List.cons_prefix_cons.mp hpart).1
    rw [size_cons] at hsize
    omega

end Utf8

namespace LineIndex

/-! ## Scans of leading parts -/

theorem scan_lt_of_isPrefix {cs ds : List Char} (h : cs.IsPrefix ds) (hne : cs ≠ ds) :
    toLex (scan cs) < toLex (scan ds) := by
  obtain ⟨rest, rfl⟩ := h
  cases rest with
  | nil => exact absurd (List.append_nil cs).symm hne
  | cons c rest =>
    have hread : (cs ++ [c]).IsPrefix (cs ++ c :: rest) := ⟨rest, by simp⟩
    calc toLex (scan cs) < toLex (advance (scan cs) c) := lt_advance _ c
      _ = toLex (scan (cs ++ [c])) := by rw [scan_concat]
      _ ≤ toLex (scan (cs ++ c :: rest)) := scan_le_of_isPrefix hread

/-- Of two leading parts of one text, neither has the place of the other. -/
theorem scan_inj {cs part part' : List Char} (h : part.IsPrefix cs) (h' : part'.IsPrefix cs)
    (hscan : scan part = scan part') : part = part' := by
  by_contra hne
  rcases List.prefix_or_prefix_of_prefix h h' with hle | hle
  · exact (scan_lt_of_isPrefix hle hne).ne (congrArg toLex hscan)
  · exact (scan_lt_of_isPrefix hle (Ne.symm hne)).ne (congrArg toLex hscan.symm)

/-- A scan is at the beginning of every line once. -/
theorem exists_scan_eq_line (cs : List Char) {k : ℕ} (hk : k ≤ cs.count '\n') :
    ∃ part : List Char, part.IsPrefix cs ∧ scan part = (k + 1, 1) := by
  induction cs using List.reverseRecOn with
  | nil =>
    obtain rfl := Nat.le_zero.mp hk
    exact ⟨[], List.prefix_rfl, rfl⟩
  | append_singleton cs c ih =>
    by_cases hle : k ≤ cs.count '\n'
    · obtain ⟨part, hpart, hscan⟩ := ih hle
      exact ⟨part, hpart.trans (List.prefix_append cs [c]), hscan⟩
    · -- The last character begins the line.
      rw [List.count_append, List.count_singleton] at hk
      have hc : c = '\n' := by
        by_contra hc
        simp [hc] at hk
        omega
      subst hc
      obtain ⟨-, current, -, -, hscan⟩ := exists_currentLine cs
      refine ⟨cs ++ ['\n'], List.prefix_rfl, ?_⟩
      have hlast : k = cs.count '\n' + 1 := by
        simp at hk
        omega
      rw [scan_concat, hscan, hlast]
      rfl

/-! ## Places of offsets -/

section Lookup

variable {source : String} (hsource : source.utf8ByteSize < UInt32.size - 1)
include hsource

/-- Offsets have one place exactly if they round down to one boundary. -/
theorem position_eq_iff {offset offset' : UInt32} {before before' : List Char}
    (h : Utf8.EndsAt source.toList offset.toNat before)
    (h' : Utf8.EndsAt source.toList offset'.toNat before') :
    (ofSource source).position source offset = (ofSource source).position source offset' ↔
      Utf8.size before = Utf8.size before' := by
  have hroom : ∀ o : UInt32, min o.toNat source.utf8ByteSize < UInt32.size - 1 :=
    fun o => (min_le_right _ _).trans_lt hsource
  rw [← Position.place_inj, place_position h (hroom offset), place_position h' (hroom offset'),
    toLex_inj]
  constructor
  · intro hscan
    rw [scan_inj h.leading h'.leading hscan]
  · intro hsize
    rw [Utf8.eq_of_size_eq h.leading h'.leading hsize]

theorem exists_position_eq_line {line : ℕ} (hone : 1 ≤ line)
    (hline : line ≤ (ofSource source).lineCount) :
    ∃ offset : UInt32, Utf8.Boundary source.toList offset.toNat ∧
      ((ofSource source).position source offset).place = toLex (line, 1) := by
  rw [lineCount, size_starts] at hline
  obtain ⟨part, hpart, hscan⟩ := exists_scan_eq_line source.toList (k := line - 1) (by omega)
  have hsize := Utf8.size_le_of_isPrefix hpart
  rw [← Utf8.utf8ByteSize_eq_size] at hsize
  have hoffset : (UInt32.ofNat (Utf8.size part)).toNat = Utf8.size part :=
    UInt32.toNat_ofNat_of_lt' (by omega)
  have hend : Utf8.EndsAt source.toList (UInt32.ofNat (Utf8.size part)).toNat part := by
    rw [hoffset]
    exact Utf8.endsAt_of_isPrefix hpart
  refine ⟨UInt32.ofNat (Utf8.size part), ⟨part, hpart, hoffset.symm⟩, ?_⟩
  rw [place_position hend ((min_le_right _ _).trans_lt hsource), hscan, Nat.sub_add_cancel hone]

end Lookup

/-- A larger offset never has an earlier place, two offsets have one place exactly if
they round down to one boundary, boundaries are told apart by their places, and
there is a boundary at the beginning of every line. -/
theorem position_separates_boundaries (source : String)
    (hsource : source.utf8ByteSize < UInt32.size - 1) :
    let ix := ofSource source
    let RoundsTo := fun (offset : UInt32) (before : List Char) =>
      Utf8.EndsAt source.toList (min offset.toNat source.utf8ByteSize) before
    (∀ offset, ∃ before, RoundsTo offset before) ∧
    (∀ offset offset' before before', offset ≤ offset' →
      RoundsTo offset before → RoundsTo offset' before' →
      (ix.position source offset).place ≤ (ix.position source offset').place ∧
        (ix.position source offset = ix.position source offset' ↔
          Utf8.size before = Utf8.size before')) ∧
    (∀ offset offset' : UInt32, Utf8.Boundary source.toList offset.toNat →
      Utf8.Boundary source.toList offset'.toNat → offset ≠ offset' →
      ix.position source offset ≠ ix.position source offset') ∧
    ∀ line, 1 ≤ line → line ≤ ix.lineCount →
      ∃ offset : UInt32, Utf8.Boundary source.toList offset.toNat ∧
        (ix.position source offset).place = toLex (line, 1) := by
  intro ix RoundsTo
  refine ⟨fun offset => Utf8.exists_endsAt _ _, ?_, ?_, ?_⟩
  · intro offset offset' before before' hle h h'
    simp only [RoundsTo, Utf8.utf8ByteSize_eq_size] at h h'
    exact ⟨place_position_le hsource hle, position_eq_iff hsource h.of_min h'.of_min⟩
  · rintro offset offset' ⟨part, hpart, hsize⟩ ⟨part', hpart', hsize'⟩ hne hposition
    have h := Utf8.endsAt_of_isPrefix hpart
    have h' := Utf8.endsAt_of_isPrefix hpart'
    rw [hsize] at h
    rw [hsize'] at h'
    have hsame := (position_eq_iff hsource h h').mp hposition
    apply hne
    rw [← UInt32.toNat_inj, ← hsize, ← hsize', hsame]
  · intro line hone hline
    exact exists_position_eq_line hsource hone hline

/-- A line feed, the start of the next line and the end after a trailing line feed
have three places. An offset inside the only long character has the place of that
character. -/
theorem position_separates_boundaries_trailing :
    let source := "é\n\n"
    let ix := ofSource source
    source.utf8ByteSize < UInt32.size - 1 ∧
      Utf8.EndsAt source.toList (min (0 : UInt32).toNat source.utf8ByteSize) [] ∧
      Utf8.EndsAt source.toList (min (1 : UInt32).toNat source.utf8ByteSize) [] ∧
      (ix.position source 0).place ≤ (ix.position source 1).place ∧
      ix.position source 0 = ix.position source 1 ∧
      Utf8.Boundary source.toList (3 : UInt32).toNat ∧
      Utf8.Boundary source.toList (4 : UInt32).toNat ∧
      ix.position source 3 ≠ ix.position source 4 ∧
      3 ≤ ix.lineCount ∧
      ∃ offset : UInt32, Utf8.Boundary source.toList offset.toNat ∧
        (ix.position source offset).place = toLex (3, 1) := by
  intro source ix
  have hsource : source.utf8ByteSize < UInt32.size - 1 := by decide
  have htext : source.toList = ['é', '\n', '\n'] := by decide
  have hzero : Utf8.EndsAt source.toList (min (0 : UInt32).toNat source.utf8ByteSize) [] := by
    rw [htext]
    exact Utf8.endsAt_nil (by decide)
  have hone : Utf8.EndsAt source.toList (min (1 : UInt32).toNat source.utf8ByteSize) [] := by
    rw [htext]
    exact Utf8.endsAt_nil (by decide)
  have hthree : Utf8.Boundary source.toList (3 : UInt32).toNat := by
    rw [htext]
    exact ⟨['é', '\n'], List.prefix_append _ ['\n'], rfl⟩
  have hfour : Utf8.Boundary source.toList (4 : UInt32).toNat := by
    rw [htext]
    exact ⟨['é', '\n', '\n'], List.prefix_rfl, rfl⟩
  have hlines : 3 ≤ ix.lineCount := by decide
  obtain ⟨-, hrounds, hdistinct, hreached⟩ := position_separates_boundaries source hsource
  obtain ⟨hle, hsame⟩ := hrounds 0 1 [] [] (UInt32.zero_le) hzero hone
  exact ⟨hsource, hzero, hone, hle, hsame.mpr rfl, hthree, hfour,
    hdistinct 3 4 hthree hfour (by decide), hlines, hreached 3 (by decide) hlines⟩

end LineIndex

end AssertionLint
