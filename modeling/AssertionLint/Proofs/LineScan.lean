import AssertionLint.Text.LineIndex
import AssertionLint.Proofs.Boundaries

/-!
# Line lookup against a plain scan

Reading a text character by character from line one, column one, gives the place
of every boundary. The line index finds the same place from the byte offset
alone. The argument follows the text up to the boundary: the line starts in it
are those the bisection counts, the last of them is where the current line
begins, and what stands between that start and the boundary is what the scan
has read of the line.
-/

namespace AssertionLint.LineIndex

/-- Line and column after one more character. -/
def advance (place : ℕ × ℕ) (c : Char) : ℕ × ℕ :=
  if c = '\n' then (place.1 + 1, 1) else (place.1, place.2 + 1)

/-- Line and column behind a text, counted from one. -/
def scan (cs : List Char) : ℕ × ℕ := cs.foldl advance (1, 1)

theorem scan_concat (cs : List Char) (c : Char) : scan (cs ++ [c]) = advance (scan cs) c := by
  simp [scan]

/-! ## Where lines start -/

/-- The first bytes of the lines of a text. -/
def lineStarts (cs : List Char) : List ℕ := 0 :: startsAfter 0 cs

theorem startsAfter_append (pos : ℕ) (cs ds : List Char) :
    startsAfter pos (cs ++ ds) = startsAfter pos cs ++ startsAfter (pos + Utf8.size cs) ds := by
  induction cs generalizing pos with
  | nil => simp [startsAfter]
  | cons c cs ih =>
    by_cases hc : c = '\n' <;> simp [startsAfter, hc, ih, Nat.add_assoc]

theorem lineStarts_append (cs ds : List Char) :
    lineStarts (cs ++ ds) = lineStarts cs ++ startsAfter (Utf8.size cs) ds := by
  simp [lineStarts, startsAfter_append]

theorem length_startsAfter (pos : ℕ) (cs : List Char) :
    (startsAfter pos cs).length = cs.count '\n' := by
  induction cs generalizing pos with
  | nil => rfl
  | cons c cs ih =>
    by_cases hc : c = '\n' <;> simp [startsAfter, hc, ih]

theorem length_lineStarts (cs : List Char) : (lineStarts cs).length = cs.count '\n' + 1 := by
  simp [lineStarts, length_startsAfter]

/-- A line starts behind a leading part of the text. -/
theorem exists_part_of_mem_startsAfter {pos s : ℕ} {cs : List Char} (h : s ∈ startsAfter pos cs) :
    ∃ part : List Char, part.IsPrefix cs ∧ part ≠ [] ∧ pos + Utf8.size part = s := by
  induction cs generalizing pos with
  | nil => simp [startsAfter] at h
  | cons c cs ih =>
    have htail : s ∈ startsAfter (pos + c.utf8Size) cs →
        ∃ part : List Char, part.IsPrefix (c :: cs) ∧ part ≠ [] ∧ pos + Utf8.size part = s := by
      intro hs
      obtain ⟨part, hpart, -, rfl⟩ := ih hs
      refine ⟨c :: part, (List.prefix_cons_inj c).mpr hpart, List.cons_ne_nil c part, ?_⟩
      rw [Utf8.size_cons, Nat.add_assoc]
    rw [startsAfter] at h
    split at h
    · rcases List.mem_cons.mp h with rfl | h
      · exact ⟨[c], by simp, List.cons_ne_nil c [], by simp⟩
      · exact htail h
    · exact htail h

theorem exists_part_of_mem_lineStarts {s : ℕ} {cs : List Char} (h : s ∈ lineStarts cs) :
    ∃ part : List Char, part.IsPrefix cs ∧ Utf8.size part = s := by
  rcases List.mem_cons.mp h with rfl | h
  · exact ⟨[], List.nil_prefix, rfl⟩
  · obtain ⟨part, hpart, -, rfl⟩ := exists_part_of_mem_startsAfter h
    exact ⟨part, hpart, (Nat.zero_add _).symm⟩

theorem le_size_of_mem_lineStarts {s : ℕ} {cs : List Char} (h : s ∈ lineStarts cs) :
    s ≤ Utf8.size cs := by
  obtain ⟨part, hpart, rfl⟩ := exists_part_of_mem_lineStarts h
  exact Utf8.size_le_of_isPrefix hpart

theorem le_utf8ByteSize_of_mem_lineStarts {s : ℕ} {source : String}
    (h : s ∈ lineStarts source.toList) : s ≤ source.utf8ByteSize := by
  rw [Utf8.utf8ByteSize_eq_size]
  exact le_size_of_mem_lineStarts h

/-- No line starts before the end of the character that is read next. -/
theorem next_le_of_mem_startsAfter {pos s : ℕ} {c : Char} {cs : List Char}
    (h : s ∈ startsAfter pos (c :: cs)) : pos + c.utf8Size ≤ s := by
  obtain ⟨part, hpart, hne, rfl⟩ := exists_part_of_mem_startsAfter h
  obtain ⟨d, part, rfl⟩ := List.exists_cons_of_ne_nil hne
  obtain ⟨rfl, -⟩ := List.cons_prefix_cons.mp hpart
  rw [Utf8.size_cons]
  omega

/-- The last line start of a text with what the scan makes of it: the text falls
into finished lines and a current line. -/
theorem exists_currentLine (cs : List Char) :
    ∃ finished current, cs = finished ++ current ∧
      (lineStarts cs)[cs.count '\n']? = some (Utf8.size finished) ∧
      scan cs = (cs.count '\n' + 1, current.length + 1) := by
  induction cs using List.reverseRecOn with
  | nil => exact ⟨[], [], rfl, rfl, rfl⟩
  | append_singleton cs c ih =>
    obtain ⟨finished, current, hcs, hstart, hscan⟩ := ih
    by_cases hc : c = '\n'
    · subst hc
      refine ⟨cs ++ ['\n'], [], by simp, ?_, ?_⟩
      · rw [lineStarts_append, List.count_append, List.getElem?_append_right
          (by simp [length_lineStarts]), length_lineStarts]
        simp [startsAfter]
      · rw [scan_concat, hscan]
        simp [advance]
    · have hcount : (cs ++ [c]).count '\n' = cs.count '\n' := by
        simp [List.count_append, hc]
      refine ⟨finished, current ++ [c], by simp [hcs], ?_, ?_⟩
      · rw [hcount, lineStarts_append, List.getElem?_append_left (by simp [length_lineStarts]),
          hstart]
      · rw [scan_concat, hscan, hcount]
        simp [advance, hc]

/-! ## Bisection -/

/-- Bisection finds the number of entries up to `offset` where these come first.
The interval always keeps that number inside. -/
theorem bisect_eq {starts : Array UInt32} {offset : UInt32} {k lo hi : ℕ}
    (hk : ∀ i < starts.size, starts[i]?.any (· ≤ offset) = true ↔ i < k)
    (hlo : lo ≤ k) (hhi : k ≤ hi) (hsize : hi ≤ starts.size) :
    bisect starts offset lo hi = k := by
  fun_induction bisect starts offset lo hi with
  | case1 lo hi hlt mid hle ih =>
    have hmid : mid < k := (hk mid (by omega)).mp hle
    exact ih hmid hhi hsize
  | case2 lo hi hlt mid hle ih =>
    have hmid : ¬ mid < k := fun h => hle ((hk mid (by omega)).mpr h)
    exact ih hlo (by omega) (by omega)
  | case3 lo hi hlt => omega

/-- The index that belongs to the offset if the first `k` entries are those up to it. -/
theorem lineIndexOf_eq {ix : LineIndex} {offset : UInt32} {k : ℕ} (hk : k ≤ ix.starts.size)
    (hle : ∀ i s, ix.starts[i]? = some s → (s ≤ offset ↔ i < k)) :
    ix.lineIndexOf offset = k - 1 := by
  have hbisect : bisect ix.starts offset 0 ix.starts.size = k := by
    apply bisect_eq _ (Nat.zero_le k) hk le_rfl
    intro i hi
    have hfound := Array.getElem?_eq_getElem hi
    rw [hfound, Option.any_some, decide_eq_true_iff]
    exact hle i _ hfound
  rw [lineIndexOf, hbisect]

theorem toNat_saturate {n : ℕ} (h : n < UInt32.size) : (saturate n).toNat = n := by
  rw [saturate, if_pos h]
  exact UInt32.toNat_ofNat_of_lt' h

theorem toNat_ordinal {n : ℕ} (h : n < UInt32.size - 1) : (ordinal n).toNat = n + 1 := by
  have hsize : UInt32.size = 4294967296 := rfl
  rw [ordinal, if_pos (by omega), UInt32.toNat_add, UInt32.toNat_ofNat_of_lt' (by omega)]
  simp
  omega

theorem toNat_sub_one {line : UInt32} {n : ℕ} (h : line.toNat = n + 1) :
    (line - 1).toNat = n := by
  rw [UInt32.toNat_sub_of_le _ _ (by rw [UInt32.le_iff_toNat_le, h]; simp), h]
  simp

/-- A line start that does not fit is cut to a word that only the largest offset
reaches. -/
theorem saturate_le_iff {n : ℕ} {offset : UInt32}
    (h : n < UInt32.size ∨ offset.toNat < UInt32.size - 1) :
    saturate n ≤ offset ↔ n ≤ offset.toNat := by
  have hsize : UInt32.size = 4294967296 := rfl
  rw [UInt32.le_iff_toNat_le]
  by_cases hn : n < UInt32.size
  · rw [toNat_saturate hn]
  · have hcut : (saturate n).toNat = UInt32.size - 1 := by
      rw [saturate, if_neg hn]
      exact UInt32.toNat_ofNat_of_lt' (by omega)
    omega

theorem starts_getElem? (source : String) (i : ℕ) :
    (ofSource source).starts[i]? = (lineStarts source.toList)[i]?.map saturate := by
  rw [ofSource, List.getElem?_toArray, List.getElem?_map]
  rfl

theorem size_starts (source : String) :
    (ofSource source).starts.size = source.toList.count '\n' + 1 := by
  simp [ofSource, length_startsAfter]

/-- The lines that start up to byte `n` are those of the part before it. -/
theorem lineStarts_le_iff {cs before : List Char} {n i s : ℕ} (h : Utf8.EndsAt cs n before)
    (hs : (lineStarts cs)[i]? = some s) : s ≤ n ↔ i < before.count '\n' + 1 := by
  obtain ⟨after, hcs⟩ := h.leading
  rw [← hcs, lineStarts_append] at hs
  rw [← length_lineStarts]
  by_cases hi : i < (lineStarts before).length
  · rw [List.getElem?_append_left hi] at hs
    have hsize := le_size_of_mem_lineStarts (List.mem_of_getElem? hs)
    exact iff_of_true (hsize.trans h.size_le) hi
  · rw [List.getElem?_append_right (by omega)] at hs
    have hmem := List.mem_of_getElem? hs
    cases after with
    | nil => simp [startsAfter] at hmem
    | cons c rest =>
      have hnext := next_le_of_mem_startsAfter hmem
      have hn := h.lt_next hcs.symm
      exact iff_of_false (by omega) hi

section Lookup

variable {source : String} {offset : UInt32} {before : List Char}
variable (hbefore : Utf8.EndsAt source.toList offset.toNat before)
include hbefore

/-- In a text of any length the line index counts the line feeds before the offset,
unless the offset is the largest word and some line starts do not fit. -/
theorem lineIndexOf_eq_count
    (hfits : source.utf8ByteSize < UInt32.size ∨ offset.toNat < UInt32.size - 1) :
    (ofSource source).lineIndexOf offset = before.count '\n' := by
  have hcount : before.count '\n' ≤ source.toList.count '\n' :=
    hbefore.leading.sublist.count_le _
  apply lineIndexOf_eq (k := before.count '\n' + 1) (by rw [size_starts]; omega)
  intro i word hword
  rw [starts_getElem?, Option.map_eq_some_iff] at hword
  obtain ⟨s, hs, rfl⟩ := hword
  have hle := le_utf8ByteSize_of_mem_lineStarts (List.mem_of_getElem? hs)
  rw [saturate_le_iff (hfits.imp_left hle.trans_lt), lineStarts_le_iff hbefore hs]

/-- The start of the current line is found from its number alone. -/
theorem toNat_startOf {line : UInt32} {start : ℕ} (hline : line.toNat = before.count '\n' + 1)
    (hstart : (lineStarts before)[before.count '\n']? = some start) :
    ((ofSource source).startOf line).toNat = start := by
  have hindex : (line - 1).toNat = before.count '\n' := toNat_sub_one hline
  have hfound : (lineStarts source.toList)[before.count '\n']? = some start := by
    obtain ⟨after, hcs⟩ := hbefore.leading
    rw [← hcs, lineStarts_append, List.getElem?_append_left (by simp [length_lineStarts]), hstart]
  have hle := le_size_of_mem_lineStarts (List.mem_of_getElem? hstart)
  have hoffset := UInt32.toNat_lt_size offset
  rw [startOf, hindex, starts_getElem?, hfound, Option.map_some, Option.getD_some,
    toNat_saturate ((hle.trans hbefore.size_le).trans_lt hoffset)]

theorem length_le_min : before.length ≤ min offset.toNat source.utf8ByteSize := by
  rw [Utf8.utf8ByteSize_eq_size]
  exact (Utf8.length_le_size before).trans
    (le_min hbefore.size_le (Utf8.size_le_of_isPrefix hbefore.leading))

theorem count_le_min : before.count '\n' ≤ min offset.toNat source.utf8ByteSize :=
  List.count_le_length.trans (length_le_min hbefore)

/-- The offset counts as the end of the text if it lies behind it. -/
theorem toNat_lineOf_of_min_lt
    (hroom : min offset.toNat source.utf8ByteSize < UInt32.size - 1) :
    ((ofSource source).lineOf offset).toNat = before.count '\n' + 1 := by
  have hfits : source.utf8ByteSize < UInt32.size ∨ offset.toNat < UInt32.size - 1 := by omega
  rw [lineOf, lineIndexOf_eq_count hbefore hfits,
    toNat_ordinal ((count_le_min hbefore).trans_lt hroom)]

end Lookup

section Lookup

variable {source : String} {offset : UInt32} {before : List Char}
variable (hsource : source.utf8ByteSize < UInt32.size - 1)
variable (hbefore : Utf8.EndsAt source.toList offset.toNat before)
include hsource hbefore

theorem toNat_lineOf : ((ofSource source).lineOf offset).toNat = before.count '\n' + 1 :=
  toNat_lineOf_of_min_lt hbefore ((min_le_right _ _).trans_lt hsource)

theorem toNat_startOf_lineOf {start : ℕ}
    (hstart : (lineStarts before)[before.count '\n']? = some start) :
    ((ofSource source).startOf ((ofSource source).lineOf offset)).toNat = start :=
  toNat_startOf hbefore (toNat_lineOf hsource hbefore) hstart

end Lookup

/-- The place found for an offset is the place a scan reaches at the last boundary
up to the offset and the end of the text. On the way the current line can always
be cut out of the text, and the column counts its characters. -/
theorem position_eq_scan (source : String) (hsource : source.utf8ByteSize < UInt32.size - 1)
    (offset : UInt32) :
    let ix := ofSource source
    let place := ix.position source offset
    (∃ before, Utf8.EndsAt source.toList (min offset.toNat source.utf8ByteSize) before) ∧
    ∀ before, Utf8.EndsAt source.toList (min offset.toNat source.utf8ByteSize) before →
      (place.line.toNat, place.column.toNat) = scan before ∧
      Utf8.floor source.toList offset.toNat = Utf8.size before ∧
      ∃ text, Utf8.slice? source.toList (ix.startOf place.line).toNat
          (Utf8.floor source.toList offset.toNat) = some text ∧
        place.column.toNat = text.length + 1 := by
  refine ⟨Utf8.exists_endsAt _ _, ?_⟩
  intro before hmin
  rw [Utf8.utf8ByteSize_eq_size] at hmin
  have hbefore := hmin.of_min
  obtain ⟨after, hcs⟩ := hbefore.leading
  obtain ⟨finished, current, hparts, hstart, hscan⟩ := exists_currentLine before
  have hslice : Utf8.slice? source.toList
      ((ofSource source).startOf ((ofSource source).lineOf offset)).toNat
      (Utf8.floor source.toList offset.toNat) = some current := by
    rw [hbefore.floor_eq, toNat_startOf_lineOf hsource hbefore hstart, ← hcs, hparts]
    exact Utf8.slice?_append finished current after
  have hcurrent : current.length < UInt32.size - 1 := by
    have hlen := Utf8.length_le_size source.toList
    rw [← Utf8.utf8ByteSize_eq_size, ← hcs, hparts] at hlen
    simp only [List.length_append] at hlen
    omega
  have hcolumn : ((ofSource source).position source offset).column.toNat = current.length + 1 := by
    rw [position, charsBetween, hslice, Option.map_some, Option.getD_some, toNat_ordinal hcurrent]
  refine ⟨?_, hbefore.floor_eq, current, hslice, hcolumn⟩
  rw [hscan, hcolumn]
  exact congrArg (·, current.length + 1) (toNat_lineOf hsource hbefore)

/-- An offset inside a character of the second line has the place of that
character. -/
theorem position_inside_character :
    "a\né".utf8ByteSize < UInt32.size - 1 ∧
      Utf8.EndsAt "a\né".toList (min (3 : UInt32).toNat "a\né".utf8ByteSize) ['a', '\n'] ∧
      (((ofSource "a\né").position "a\né" 3).line.toNat,
        ((ofSource "a\né").position "a\né" 3).column.toNat) = (2, 1) := by
  have hsource : "a\né".utf8ByteSize < UInt32.size - 1 := by decide
  have hend : Utf8.EndsAt "a\né".toList (min (3 : UInt32).toNat "a\né".utf8ByteSize)
      ['a', '\n'] := by
    refine ⟨by decide, by decide, ?_⟩
    intro part hpart
    have hall : ∀ p ∈ "a\né".toList.inits, Utf8.size p ≤ 3 → Utf8.size p ≤ 2 := by decide
    exact hall part ((List.mem_inits _ _).mpr hpart)
  exact ⟨hsource, hend, ((position_eq_scan "a\né" hsource 3).2 _ hend).1⟩

end AssertionLint.LineIndex
