import AssertionLint.Proofs.DistinctPlaces

/-!
# Looking up places in another text

A line index may be asked about a text that it was not made for. Then the line is that
of the index, whatever the text is, and it may start behind the end of the text or
inside one of its characters. The column counts what can be cut out of the text between
there and the offset, and that is nothing if the line starts at no boundary. The offset
itself is rounded by walking back byte by byte, which stops at the line start at the
latest.
-/

namespace AssertionLint

namespace Utf8

variable {cs : List Char} {start stop n : ℕ}

theorem isSome_dropBytes?_iff : (dropBytes? n cs).isSome = true ↔ Boundary cs n := by
  rw [Option.isSome_iff_exists]
  constructor
  · rintro ⟨rest, h⟩
    obtain ⟨before, rfl, hsize⟩ := dropBytes?_eq_some_iff.mp h
    exact ⟨before, List.prefix_append before rest, hsize⟩
  · rintro ⟨before, ⟨rest, hcs⟩, hsize⟩
    exact ⟨rest, dropBytes?_eq_some_iff.mpr ⟨before, hcs.symm, hsize⟩⟩

instance : DecidablePred (Boundary cs) := fun _ => decidable_of_iff _ isSome_dropBytes?_iff

/-- A text can be cut exactly at its boundaries. -/
theorem isSome_slice?_iff : (slice? cs start stop).isSome = true ↔
    start ≤ stop ∧ Boundary cs start ∧ Boundary cs stop := by
  rw [Option.isSome_iff_exists]
  constructor
  · rintro ⟨part, h⟩
    obtain ⟨before, after, rfl, rfl, rfl⟩ := slice?_eq_some_iff.mp h
    refine ⟨by simp, ⟨before, ?_, rfl⟩, ⟨before ++ part, List.prefix_append _ after, rfl⟩⟩
    exact ⟨part ++ after, (List.append_assoc before part after).symm⟩
  · rintro ⟨hle, ⟨before, hbefore, rfl⟩, ⟨upTo, hupTo, rfl⟩⟩
    obtain ⟨part, rfl⟩ :=
      (endsAt_of_isPrefix hbefore).isPrefix_of_le (endsAt_of_isPrefix hupTo) hle
    obtain ⟨after, rfl⟩ := hupTo
    exact ⟨part, slice?_append before part after⟩

/-- The byte position lies between two bytes of one character. -/
def Inside (cs : List Char) (n : ℕ) : Prop :=
  ∃ before c after, cs = before ++ c :: after ∧ size before < n ∧ n < size before + c.utf8Size

theorem Inside.not_boundary (h : Inside cs n) : ¬Boundary cs n := by
  rintro ⟨part, hpart, rfl⟩
  obtain ⟨before, c, after, rfl, hlt, hnext⟩ := h
  have hbefore : before.IsPrefix (before ++ c :: after) := List.prefix_append _ _
  -- The part goes on behind `before`, and so it has the whole character.
  obtain ⟨more, rfl⟩ :=
    (endsAt_of_isPrefix hbefore).isPrefix_of_le (endsAt_of_isPrefix hpart) hlt.le
  rw [List.prefix_append_right_inj] at hpart
  rw [size_append] at hlt hnext
  cases more with
  | nil => exact absurd hlt (lt_irrefl _)
  | cons d more =>
    obtain ⟨rfl, -⟩ := List.cons_prefix_cons.mp hpart
    rw [size_cons] at hnext
    omega

theorem Boundary.le_size (h : Boundary cs n) : n ≤ size cs := by
  obtain ⟨part, hpart, rfl⟩ := h
  exact size_le_of_isPrefix hpart

/-! ## Walking back -/

/-- Walks back from byte `stop` to a boundary as long as it is behind byte `start`. -/
def backUp (cs : List Char) (start : ℕ) : ℕ → ℕ
  | 0 => 0
  | stop + 1 =>
    if start < stop + 1 ∧ ¬Boundary cs (stop + 1) then backUp cs start stop else stop + 1

theorem Boundary.floor_eq (h : Boundary cs n) : floor cs n = n := by
  obtain ⟨part, hpart, rfl⟩ := h
  exact (endsAt_of_isPrefix hpart).floor_eq

theorem floor_min_size : floor cs (min n (size cs)) = floor cs n := by
  obtain ⟨before, h⟩ := exists_endsAt cs (min n (size cs))
  rw [h.floor_eq, h.of_min.floor_eq]

theorem boundary_floor (cs : List Char) (n : ℕ) : Boundary cs (floor cs n) := by
  obtain ⟨before, h⟩ := exists_endsAt cs n
  exact ⟨before, h.leading, h.floor_eq.symm⟩

theorem le_floor_of_boundary (h : Boundary cs start) (hle : start ≤ n) : start ≤ floor cs n := by
  obtain ⟨before, hbefore⟩ := exists_endsAt cs n
  obtain ⟨part, hpart, rfl⟩ := h
  rw [hbefore.floor_eq]
  exact hbefore.last part hpart hle

/-- Positions that are no boundary round down like the ones before them. -/
theorem floor_succ_of_not_boundary (h : ¬Boundary cs (n + 1)) :
    floor cs (n + 1) = floor cs n := by
  have hle := floor_le cs (n + 1)
  have hne : floor cs (n + 1) ≠ n + 1 := fun he => h (he ▸ boundary_floor cs (n + 1))
  apply le_antisymm
  · exact le_floor_of_boundary (boundary_floor cs (n + 1)) (by omega)
  · have hfloor := floor_le cs n
    exact le_floor_of_boundary (boundary_floor cs n) (by omega)

/-- The walk ends at the last boundary, unless `start` or the place where it began is
reached first. -/
theorem backUp_eq (cs : List Char) (start stop : ℕ) :
    backUp cs start stop = max (floor cs stop) (min start stop) := by
  induction stop with
  | zero =>
    have hfloor := floor_le cs 0
    rw [backUp]
    omega
  | succ stop ih =>
    rw [backUp]
    by_cases hb : Boundary cs (stop + 1)
    · rw [if_neg (by simp [hb]), hb.floor_eq]
      omega
    · have hfloor := floor_le cs stop
      rw [floor_succ_of_not_boundary hb]
      by_cases hlt : start < stop + 1
      · rw [if_pos ⟨hlt, hb⟩, ih]
        omega
      · rw [if_neg (by simp [hlt])]
        omega

/-- Cutting after the walk is cutting at the last boundary. -/
theorem slice?_backUp (cs : List Char) (start n : ℕ) :
    slice? cs start (backUp cs start (min n (size cs))) = slice? cs start (floor cs n) := by
  rw [backUp_eq, floor_min_size]
  rcases Nat.lt_or_ge (floor cs n) start with hlt | hge
  · -- Then the line starts at no boundary up to the offset, and there is nothing to cut.
    have hnone : slice? cs start (floor cs n) = none := if_neg (by omega)
    rw [hnone, ← Option.not_isSome_iff_eq_none, isSome_slice?_iff]
    rintro ⟨hle, hstart, -⟩
    have hfloor := le_floor_of_boundary hstart (n := n) (by omega)
    omega
  · rw [max_eq_left (by omega)]

/-! ## Counting characters -/

/-- The bytes at which characters begin, in a text that begins at byte `pos`. -/
def firstBytes (pos : ℕ) : List Char → List ℕ
  | [] => []
  | c :: cs => pos :: firstBytes (pos + c.utf8Size) cs

theorem firstBytes_append (pos : ℕ) (cs ds : List Char) :
    firstBytes pos (cs ++ ds) = firstBytes pos cs ++ firstBytes (pos + size cs) ds := by
  induction cs generalizing pos with
  | nil => rfl
  | cons c cs ih => simp [firstBytes, ih, Nat.add_assoc]

theorem length_firstBytes (pos : ℕ) (cs : List Char) : (firstBytes pos cs).length = cs.length := by
  induction cs generalizing pos with
  | nil => rfl
  | cons c cs ih => simp [firstBytes, ih]

theorem mem_firstBytes {pos p : ℕ} (h : p ∈ firstBytes pos cs) :
    pos ≤ p ∧ p < pos + size cs := by
  induction cs generalizing pos with
  | nil => simp [firstBytes] at h
  | cons c cs ih =>
    have hc := c.utf8Size_pos
    rw [size_cons]
    rcases List.mem_cons.mp h with rfl | h
    · omega
    · have := ih h
      omega

/-- The characters cut out of a text begin between the two cuts. -/
theorem length_le_countP {part : List Char} (h : slice? cs start stop = some part)
    (hn : stop ≤ n) :
    part.length ≤ (firstBytes 0 cs).countP fun p => start ≤ p ∧ p < n := by
  obtain ⟨before, after, rfl, rfl, rfl⟩ := slice?_eq_some_iff.mp h
  have hpart : (firstBytes (size before) part).countP (fun p => size before ≤ p ∧ p < n) =
      part.length := by
    rw [← length_firstBytes (size before) part, List.countP_eq_length]
    intro p hp
    have := mem_firstBytes hp
    rw [size_append] at hn
    simp
    omega
  rw [firstBytes_append, firstBytes_append, List.countP_append, List.countP_append, Nat.zero_add,
    hpart]
  omega

end Utf8

namespace LineIndex

/-! ## Lines of any index -/

theorem bisect_le {starts : Array UInt32} {offset : UInt32} {lo hi : ℕ} (h : lo ≤ hi) :
    bisect starts offset lo hi ≤ hi := by
  fun_induction bisect starts offset lo hi with
  | case1 lo hi hlt mid hle ih => exact ih (by omega)
  | case2 lo hi hlt mid hle ih => exact (ih (by omega)).trans (by omega)
  | case3 lo hi hlt => exact h

theorem lineIndexOf_lt (ix : LineIndex) (offset : UInt32) :
    ix.lineIndexOf offset < max 1 ix.lineCount := by
  have hle : bisect ix.starts offset 0 ix.starts.size ≤ ix.starts.size :=
    bisect_le (Nat.zero_le _)
  rw [lineIndexOf, lineCount]
  omega

section Lines

variable {ix : LineIndex} (hlines : ix.lineCount < UInt32.size) (offset : UInt32)
include hlines

/-- Lines are counted from one as long as all of them can be. -/
theorem toNat_lineOf_of_lineCount : (ix.lineOf offset).toNat = ix.lineIndexOf offset + 1 := by
  have hsize : UInt32.size = 4294967296 := rfl
  have hlt := ix.lineIndexOf_lt offset
  exact toNat_ordinal (by omega)

/-- Only an index without lines has no start for the line it answers with. -/
theorem startOf_lineOf :
    ix.starts[(ix.lineOf offset).toNat - 1]? = some (ix.startOf (ix.lineOf offset)) ∨
      ix = empty ∧ ix.startOf (ix.lineOf offset) = 0 := by
  have hline := toNat_lineOf_of_lineCount hlines offset
  have hindex : (ix.lineOf offset - 1).toNat = ix.lineIndexOf offset := toNat_sub_one hline
  rw [startOf, hindex, hline, Nat.add_sub_cancel]
  have hlt := ix.lineIndexOf_lt offset
  rcases Nat.eq_zero_or_pos ix.lineCount with hzero | hpos
  · obtain ⟨starts⟩ := ix
    obtain rfl := Array.eq_empty_of_size_eq_zero hzero
    exact .inr ⟨rfl, rfl⟩
  · have hfound : ix.lineIndexOf offset < ix.starts.size := by
      rw [lineCount] at hlt hpos
      omega
    rw [Array.getElem?_eq_getElem hfound]
    exact .inl rfl

end Lines

theorem lineCount_ofSource_lt {source : String} (h : source.utf8ByteSize < UInt32.size - 1) :
    (ofSource source).lineCount < UInt32.size := by
  have hcount : source.toList.count '\n' ≤ source.toList.length := List.count_le_length
  have hlen := Utf8.length_le_size source.toList
  rw [← Utf8.utf8ByteSize_eq_size] at hlen
  rw [lineCount, size_starts]
  omega

/-! ## Columns in any text -/

theorem charsBetween_le_size (cs : List Char) (start n : ℕ) :
    charsBetween cs start n ≤ Utf8.size cs := by
  rw [charsBetween]
  cases h : Utf8.slice? cs start (Utf8.floor cs n) with
  | none => exact Nat.zero_le _
  | some part =>
    obtain ⟨before, after, rfl, -, -⟩ := Utf8.slice?_eq_some_iff.mp h
    have hlen := Utf8.length_le_size part
    simp
    omega

theorem charsBetween_le_countP (cs : List Char) (start n : ℕ) :
    charsBetween cs start n ≤ (Utf8.firstBytes 0 cs).countP fun p => start ≤ p ∧ p < n := by
  rw [charsBetween]
  cases h : Utf8.slice? cs start (Utf8.floor cs n) with
  | none => exact Nat.zero_le _
  | some part => exact Utf8.length_le_countP h (Utf8.floor_le cs n)

theorem charsBetween_of_not_boundary {cs : List Char} {start : ℕ}
    (h : ¬Utf8.Boundary cs start) (n : ℕ) : charsBetween cs start n = 0 := by
  have hnone : Utf8.slice? cs start (Utf8.floor cs n) = none := by
    rw [← Option.not_isSome_iff_eq_none, Utf8.isSome_slice?_iff]
    exact fun hslice => h hslice.2.1
  rw [charsBetween, hnone]
  rfl

/-- Where the line of an offset starts. -/
def lineStart (ix : LineIndex) (offset : UInt32) : ℕ := (ix.startOf (ix.lineOf offset)).toNat

/-- Up to where characters are counted: back from the offset, or from the end of the
text, to a boundary behind the start of the line. -/
def countedTo (ix : LineIndex) (text : String) (offset : UInt32) : ℕ :=
  Utf8.backUp text.toList (ix.lineStart offset) (min offset.toNat text.utf8ByteSize)

theorem toNat_column {text : String} (htext : text.utf8ByteSize < UInt32.size - 1)
    (ix : LineIndex) (offset : UInt32) :
    (ix.position text offset).column.toNat =
      charsBetween text.toList (ix.lineStart offset) offset.toNat + 1 := by
  rw [Utf8.utf8ByteSize_eq_size] at htext
  exact toNat_ordinal ((charsBetween_le_size _ _ _).trans_lt htext)

/-- What a line index answers about an offset into a text, whether or not it was made for
the text. -/
structure Answers (ix : LineIndex) (text : String) (offset : UInt32) (place : Position) :
    Prop where
  line : place.line = ix.lineOf offset
  one_le_line : 1 ≤ place.line.toNat
  line_le : place.line.toNat ≤ max 1 ix.lineCount
  /-- The line starts where the index says, or at zero if the index has no lines. -/
  start : ix.starts[place.line.toNat - 1]? = some (ix.startOf place.line) ∨
    ix = empty ∧ ix.startOf place.line = 0
  /-- No byte is looked at behind the offset or behind the text. -/
  stop : ix.countedTo text offset ≤ min offset.toNat text.utf8ByteSize
  /-- Nothing is cut out of the text but between two boundaries. -/
  cut : (Utf8.slice? text.toList (ix.lineStart offset) (ix.countedTo text offset)).isSome = true ↔
    ix.lineStart offset ≤ ix.countedTo text offset ∧
      Utf8.Boundary text.toList (ix.lineStart offset) ∧
      Utf8.Boundary text.toList (ix.countedTo text offset)
  column : place.column.toNat =
    ((Utf8.slice? text.toList (ix.lineStart offset) (ix.countedTo text offset)).map
      List.length).getD 0 + 1
  column_le : place.column.toNat - 1 ≤
    (Utf8.firstBytes 0 text.toList).countP fun p => ix.lineStart offset ≤ p ∧ p < offset.toNat
  /-- A line that starts at no boundary of the text has no characters in it. -/
  column_one : text.utf8ByteSize < ix.lineStart offset ∨
    Utf8.Inside text.toList (ix.lineStart offset) → place.column = 1

/-- An index without lines, or one that was made for any text, answers for every text as
long as no line and no column leaves the word. -/
theorem position_in_foreign_text (ix : LineIndex)
    (hix : ix = empty ∨ ∃ source : String, source.utf8ByteSize < UInt32.size - 1 ∧
      ix = ofSource source)
    (text : String) (htext : text.utf8ByteSize < UInt32.size - 1) (offset : UInt32) :
    ix.Answers text offset (ix.position text offset) := by
  have hlines : ix.lineCount < UInt32.size := by
    rcases hix with rfl | ⟨source, hsource, rfl⟩
    · decide
    · exact lineCount_ofSource_lt hsource
  have hline := toNat_lineOf_of_lineCount hlines offset
  have hcolumn := toNat_column htext ix offset
  have hslice := Utf8.slice?_backUp text.toList (ix.lineStart offset) offset.toNat
  rw [← Utf8.utf8ByteSize_eq_size] at hslice
  exact {
    line := rfl
    one_le_line := by
      change 1 ≤ (ix.lineOf offset).toNat
      omega
    line_le := by
      have hlt := ix.lineIndexOf_lt offset
      change (ix.lineOf offset).toNat ≤ _
      omega
    start := startOf_lineOf hlines offset
    stop := by
      have hfloor := Utf8.floor_le text.toList (min offset.toNat text.utf8ByteSize)
      rw [countedTo, Utf8.backUp_eq]
      omega
    cut := Utf8.isSome_slice?_iff
    column := by rw [hcolumn, countedTo, hslice, charsBetween]
    column_le := by
      rw [hcolumn, Nat.add_sub_cancel]
      exact charsBetween_le_countP _ _ _
    column_one := by
      intro hstart
      have hboundary : ¬Utf8.Boundary text.toList (ix.lineStart offset) := by
        rcases hstart with hbehind | hinside
        · intro hb
          have hle := hb.le_size
          rw [← Utf8.utf8ByteSize_eq_size] at hle
          omega
        · exact hinside.not_boundary
      rw [← UInt32.toNat_inj, hcolumn, charsBetween_of_not_boundary hboundary]
      rfl }

/-- The second line starts inside the first character of another text. -/
theorem position_in_foreign_text_inside :
    let ix := ofSource "\nab"
    (∃ source : String, source.utf8ByteSize < UInt32.size - 1 ∧ ix = ofSource source) ∧
      "éx".utf8ByteSize < UInt32.size - 1 ∧ ix.Answers "éx" 3 (ix.position "éx" 3) ∧
      Utf8.Inside "éx".toList (ix.lineStart 3) ∧ (ix.position "éx" 3).column = 1 := by
  intro ix
  have hix : ∃ source : String, source.utf8ByteSize < UInt32.size - 1 ∧ ix = ofSource source :=
    ⟨"\nab", by decide, rfl⟩
  have htext : "éx".utf8ByteSize < UInt32.size - 1 := by decide
  have hstart : ix.lineStart 3 = 1 := by decide +kernel
  have hinside : Utf8.Inside "éx".toList (ix.lineStart 3) := by
    rw [hstart]
    exact ⟨[], 'é', ['x'], by decide, by decide, by decide⟩
  have hanswer := position_in_foreign_text ix (.inr hix) "éx" htext 3
  exact ⟨hix, htext, hanswer, hinside, hanswer.column_one (.inr hinside)⟩

end LineIndex

end AssertionLint
