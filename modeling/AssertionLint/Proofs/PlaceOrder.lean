import AssertionLint.Proofs.LineScan
import Mathlib.Data.Prod.Lex

/-!
# Places in reading order

A larger offset rounds down to the same boundary or to a later one, and a scan
that reads on never comes back to an earlier place. So the place found for an
offset only moves forward as the offset grows, also for offsets inside a
character or past the end of the text.
-/

namespace AssertionLint

/-- Line and column, compared first by line and then by column. -/
def Position.place (p : Position) : ℕ ×ₗ ℕ := toLex (p.line.toNat, p.column.toNat)

namespace Utf8

theorem EndsAt.isPrefix_of_le {cs before before' : List Char} {n n' : ℕ}
    (h : EndsAt cs n before) (h' : EndsAt cs n' before') (hn : n ≤ n') :
    before.IsPrefix before' := by
  rcases List.prefix_or_prefix_of_prefix h.leading h'.leading with hle | ⟨rest, rfl⟩
  · exact hle
  · -- The part that fits into the smaller offset fits into the larger one as well.
    have hsize := h'.last _ h.leading (h.size_le.trans hn)
    rw [size_append] at hsize
    have hlen := length_le_size rest
    have hrest : rest = [] := List.length_eq_zero_iff.mp (by omega)
    rw [hrest, List.append_nil]

end Utf8

namespace LineIndex

theorem lt_advance (place : ℕ × ℕ) (c : Char) : toLex place < toLex (advance place c) := by
  rw [advance, Prod.Lex.toLex_lt_toLex]
  split
  · exact .inl (Nat.lt_succ_self _)
  · exact .inr ⟨rfl, Nat.lt_succ_self _⟩

theorem scan_le_of_isPrefix {cs ds : List Char} (h : cs.IsPrefix ds) :
    toLex (scan cs) ≤ toLex (scan ds) := by
  obtain ⟨rest, rfl⟩ := h
  induction rest using List.reverseRecOn with
  | nil => rw [List.append_nil]
  | append_singleton rest c ih =>
    rw [← List.append_assoc, scan_concat]
    exact ih.trans (lt_advance _ c).le

section Lookup

variable {source : String} {offset : UInt32} {before : List Char}
variable (hbefore : Utf8.EndsAt source.toList offset.toNat before)
include hbefore

/-- What stands between the start of the line and the boundary. -/
theorem charsBetween_eq {line : UInt32} (hline : line.toNat = before.count '\n' + 1)
    {finished current : List Char} (hparts : before = finished ++ current)
    (hstart : (lineStarts before)[before.count '\n']? = some (Utf8.size finished)) :
    charsBetween source.toList ((ofSource source).startOf line).toNat offset.toNat =
      current.length := by
  obtain ⟨after, hcs⟩ := hbefore.leading
  rw [charsBetween, hbefore.floor_eq, toNat_startOf hbefore hline hstart, ← hcs, hparts,
    Utf8.slice?_append]
  rfl

theorem charsBetween_le_min {line : UInt32} (hline : line.toNat = before.count '\n' + 1) :
    charsBetween source.toList ((ofSource source).startOf line).toNat offset.toNat ≤
      min offset.toNat source.utf8ByteSize := by
  obtain ⟨finished, current, hparts, hstart, -⟩ := exists_currentLine before
  have hcurrent : current.length ≤ before.length := by
    rw [hparts, List.length_append]
    exact Nat.le_add_left _ _
  rw [charsBetween_eq hbefore hline hparts hstart]
  exact hcurrent.trans (length_le_min hbefore)

theorem place_position (hroom : min offset.toNat source.utf8ByteSize < UInt32.size - 1) :
    ((ofSource source).position source offset).place = toLex (scan before) := by
  obtain ⟨finished, current, hparts, hstart, hscan⟩ := exists_currentLine before
  have hline := toNat_lineOf_of_min_lt hbefore hroom
  have hchars := charsBetween_eq hbefore hline hparts hstart
  have hfits := (charsBetween_le_min hbefore hline).trans_lt hroom
  rw [hscan, Position.place, position, hline, toNat_ordinal hfits, hchars]

end Lookup

theorem place_position_le {source : String} (hsource : source.utf8ByteSize < UInt32.size - 1)
    {offset offset' : UInt32} (h : offset ≤ offset') :
    ((ofSource source).position source offset).place ≤
      ((ofSource source).position source offset').place := by
  obtain ⟨before, hbefore⟩ := Utf8.exists_endsAt source.toList offset.toNat
  obtain ⟨before', hbefore'⟩ := Utf8.exists_endsAt source.toList offset'.toNat
  rw [place_position hbefore ((min_le_right _ _).trans_lt hsource),
    place_position hbefore' ((min_le_right _ _).trans_lt hsource)]
  apply scan_le_of_isPrefix
  exact hbefore.isPrefix_of_le hbefore' (UInt32.le_iff_toNat_le.mp h)

end LineIndex

end AssertionLint
