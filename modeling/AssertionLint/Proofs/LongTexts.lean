import AssertionLint.Proofs.PlaceOrder

/-!
# Places in texts of any length

Lines and columns are counted from one in words. A number that does not fit is cut
to the largest word but one first, so that one more still fits; the largest word
itself does fit and is not cut, and one more than it is zero. That happens to
lines and columns alike, but only for the largest offset, in a text that reaches
it. Everywhere else a text may be as long as it likes: the place is the one that
a scan finds.
-/

namespace AssertionLint.LineIndex

theorem toNat_ordinal_eq (n : ℕ) :
    (ordinal n).toNat = if n = UInt32.size - 1 then 0 else min (n + 1) (UInt32.size - 1) := by
  have hsize : UInt32.size = 4294967296 := rfl
  by_cases hlt : n < UInt32.size - 1
  · rw [toNat_ordinal hlt, if_neg (by omega)]
    omega
  · by_cases heq : n = UInt32.size - 1
    · rw [heq]
      rfl
    · rw [ordinal, if_neg (by omega), if_neg heq]
      change UInt32.size - 1 = _
      omega

/-- Line and column at any offset into a text of any length. A line index or a number
of characters that equals the largest word leaves the words when it is counted
from one; larger ones are cut. Neither can be so large unless both the offset and
the text reach the largest word, and below it the place is that of a scan. -/
theorem position_of_any_length (source : String) (offset : UInt32) :
    let ix : LineIndex := ofSource source
    let place := ix.position source offset
    let index := ix.lineIndexOf offset
    let chars := charsBetween source.toList (ix.startOf place.line).toNat offset.toNat
    (place.line.toNat =
      if index = UInt32.size - 1 then 0 else min (index + 1) (UInt32.size - 1)) ∧
    (place.column.toNat =
      if chars = UInt32.size - 1 then 0 else min (chars + 1) (UInt32.size - 1)) ∧
    (min offset.toNat source.utf8ByteSize < UInt32.size - 1 →
      index < UInt32.size - 1 ∧ chars < UInt32.size - 1 ∧
      ∀ before, Utf8.EndsAt source.toList offset.toNat before →
        scan before = (index + 1, chars + 1) ∧
        place.place = toLex (scan before)) := by
  intro ix place index chars
  refine ⟨toNat_ordinal_eq index, toNat_ordinal_eq chars, ?_⟩
  intro hroom
  have hfits : source.utf8ByteSize < UInt32.size ∨ offset.toNat < UInt32.size - 1 := by omega
  have hplace : ∀ before, Utf8.EndsAt source.toList offset.toNat before →
      scan before = (index + 1, chars + 1) := by
    intro before hbefore
    obtain ⟨finished, current, hparts, hstart, hscan⟩ := exists_currentLine before
    have hline := toNat_lineOf_of_min_lt hbefore hroom
    rw [hscan, ← lineIndexOf_eq_count hbefore hfits,
      ← charsBetween_eq hbefore hline hparts hstart]
    rfl
  obtain ⟨before, hbefore⟩ := Utf8.exists_endsAt source.toList offset.toNat
  refine ⟨?_, ?_, ?_⟩
  · have hcount := (count_le_min hbefore).trans_lt hroom
    rwa [← lineIndexOf_eq_count hbefore hfits] at hcount
  · exact (charsBetween_le_min hbefore (toNat_lineOf_of_min_lt hbefore hroom)).trans_lt hroom
  · intro before hbefore
    exact ⟨hplace before hbefore, place_position hbefore hroom⟩

/-- The largest offset in a short text. -/
theorem position_of_any_length_past_end :
    let offset := UInt32.ofNat (UInt32.size - 1)
    let ix := ofSource "a\né"
    let place := ix.position "a\né" offset
    let index := ix.lineIndexOf offset
    let chars := charsBetween "a\né".toList (ix.startOf place.line).toNat offset.toNat
    min offset.toNat "a\né".utf8ByteSize < UInt32.size - 1 ∧
      index < UInt32.size - 1 ∧ chars < UInt32.size - 1 ∧
      Utf8.EndsAt "a\né".toList offset.toNat ['a', '\n', 'é'] ∧
      scan ['a', '\n', 'é'] = (index + 1, chars + 1) ∧
      place.place = toLex (scan ['a', '\n', 'é']) := by
  intro offset ix place index chars
  have hroom : min offset.toNat "a\né".utf8ByteSize < UInt32.size - 1 := by decide
  have hend : Utf8.EndsAt "a\né".toList offset.toNat ['a', '\n', 'é'] := by
    refine ⟨by decide, by decide, ?_⟩
    intro part hpart _
    exact Utf8.size_le_of_isPrefix hpart
  obtain ⟨hindex, hchars, hscan⟩ := (position_of_any_length "a\né" offset).2.2 hroom
  exact ⟨hroom, hindex, hchars, hend, hscan _ hend⟩

/-! ## At the largest word -/

section Replicate

variable {c : Char} {n : ℕ}

theorem size_replicate (hc : c.utf8Size = 1) : Utf8.size (List.replicate n c) = n := by
  induction n with
  | zero => rfl
  | succ n ih => rw [List.replicate_succ, Utf8.size_cons, ih, hc, Nat.add_comm]

/-- A text of `n` equal characters of one byte each ends at byte `n`. -/
theorem endsAt_replicate (hc : c.utf8Size = 1) (hn : n < UInt32.size) :
    Utf8.EndsAt (String.ofList (List.replicate n c)).toList (UInt32.ofNat n).toNat
      (List.replicate n c) := by
  rw [String.toList_ofList, UInt32.toNat_ofNat_of_lt' hn]
  simpa only [size_replicate hc] using
    Utf8.endsAt_of_isPrefix (List.prefix_refl (List.replicate n c))

theorem lineIndexOf_replicate (hc : c.utf8Size = 1) (hn : n < UInt32.size) :
    (ofSource (String.ofList (List.replicate n c))).lineIndexOf (UInt32.ofNat n) =
      (List.replicate n c).count '\n' := by
  apply lineIndexOf_eq_count (endsAt_replicate hc hn)
  left
  rwa [Utf8.utf8ByteSize_eq_size, String.toList_ofList, size_replicate hc]

/-- All characters of a text without a line feed stand in one line. -/
theorem charsBetween_replicate (hc : c.utf8Size = 1) (hfeed : c ≠ '\n') (hn : n < UInt32.size) :
    let source := String.ofList (List.replicate n c)
    let ix := ofSource source
    let offset := UInt32.ofNat n
    charsBetween source.toList (ix.startOf (ix.lineOf offset)).toNat offset.toNat = n := by
  intro source ix offset
  have hcount : (List.replicate n c).count '\n' = 0 :=
    List.count_eq_zero.mpr fun h => hfeed (List.eq_of_mem_replicate h).symm
  have hline : (ix.lineOf offset).toNat = (List.replicate n c).count '\n' + 1 := by
    rw [lineOf, lineIndexOf_replicate hc hn, hcount]
    rfl
  have hstart : (lineStarts (List.replicate n c))[(List.replicate n c).count '\n']? =
      some (Utf8.size []) := by
    rw [hcount]
    rfl
  rw [charsBetween_eq (endsAt_replicate hc hn) hline (List.nil_append _).symm hstart,
    List.length_replicate]

end Replicate

/-- At the largest offset, the column behind a line of as many characters and the line
behind as many line feeds are zero. -/
theorem position_leaves_words :
    let largest := UInt32.size - 1
    let offset := UInt32.ofNat largest
    let longLine := String.ofList (List.replicate largest 'a')
    let lineFeeds := String.ofList (List.replicate largest '\n')
    let place := (ofSource longLine).position longLine offset
    let start := (ofSource longLine).startOf place.line
    charsBetween longLine.toList start.toNat offset.toNat = largest ∧ place.column = 0 ∧
      (ofSource lineFeeds).lineIndexOf offset = largest ∧
      ((ofSource lineFeeds).position lineFeeds offset).line = 0 := by
  intro largest offset longLine lineFeeds place start
  have hlargest : largest < UInt32.size := by decide
  have hwraps : ordinal largest = 0 := by
    rw [← UInt32.toNat_inj, toNat_ordinal_eq, if_pos rfl, UInt32.toNat_zero]
  have hchars : charsBetween longLine.toList start.toNat offset.toNat = largest :=
    charsBetween_replicate rfl (by decide) hlargest
  have hindex : (ofSource lineFeeds).lineIndexOf offset = largest := by
    rw [lineIndexOf_replicate rfl hlargest, List.count_replicate_self]
  refine ⟨hchars, ?_, hindex, ?_⟩
  · exact (congrArg ordinal hchars).trans hwraps
  · exact (congrArg ordinal hindex).trans hwraps

end AssertionLint.LineIndex
