import AssertionLint.Proofs.ByteOrder
import AssertionLint.Proofs.DistinctPlaces

/-!
# Line starts among the bytes of a text

A line index is made from the characters of a text, and its entries are byte positions. A
pass over the bytes finds the same entries: the byte of a line feed stands for nothing else
in UTF-8, since no longer character has it among its bytes. Cutting the entries to words
keeps them in order.

As long as every position of the text is a word, no two entries are equal. Then an offset
has one place among them, and the index found there is the number of line feeds among the
bytes before it.
-/

namespace AssertionLint

namespace Text

/-- The byte of a line feed. -/
def lineFeed : ℕ := 0x0a

theorem length_codeBytes (c : Char) : (codeBytes c.toNat).length = c.utf8Size := by
  rw [← utf8EncodeChar_toNat, List.length_map, String.length_utf8EncodeChar]

theorem length_encoded (cs : List Char) : (encoded cs).length = Utf8.size cs := by
  induction cs with
  | nil => rfl
  | cons c cs ih => rw [encoded_cons, List.length_append, length_codeBytes, ih, Utf8.size_cons]

theorem lineFeed_notMem_codeBytes {c : Char} (hc : c ≠ '\n') : lineFeed ∉ codeBytes c.toNat := by
  have hcode : c.toNat ≠ 0x0a := fun h => hc (Char.toNat_inj.mp h)
  unfold codeBytes lineFeed
  split_ifs <;> simp <;> omega

end Text

open Text

namespace LineIndex

/-! ## Line feeds among bytes -/

theorem startsAfter_eq_idxsOf (pos : ℕ) (cs : List Char) :
    startsAfter pos cs = ((encoded cs).idxsOf lineFeed pos).map (· + 1) := by
  induction cs generalizing pos with
  | nil => rfl
  | cons c cs ih =>
    rw [encoded_cons, List.idxsOf_append, length_codeBytes, List.map_append, ← ih, startsAfter]
    split_ifs with hc
    · subst hc
      rfl
    · have hnone : (codeBytes c.toNat).idxsOf lineFeed pos = [] := by
        rw [List.idxsOf_eq_nil_iff]
        intro b hb
        exact beq_false_of_ne fun h => lineFeed_notMem_codeBytes hc (h ▸ hb)
      rw [hnone, List.map_nil, List.nil_append]

theorem lineStarts_eq (source : String) :
    lineStarts source.toList = 0 :: ((bytes source).idxsOf lineFeed).map (· + 1) := by
  rw [lineStarts, startsAfter_eq_idxsOf, bytes_eq]

theorem pairwise_lineStarts (source : String) : (lineStarts source.toList).Pairwise (· < ·) := by
  rw [lineStarts_eq, List.pairwise_cons, List.pairwise_map]
  constructor
  · intro s hs
    obtain ⟨p, -, rfl⟩ := List.mem_map.mp hs
    exact Nat.succ_pos p
  · exact List.pairwise_idxsOf.imp Nat.succ_lt_succ

theorem count_encoded (cs : List Char) : (encoded cs).count lineFeed = cs.count '\n' := by
  rw [← length_startsAfter 0, startsAfter_eq_idxsOf, List.length_map, List.length_idxsOf]

/-- The bytes up to an offset have the line feeds of the characters that end there: the
bytes of a character that is cut off are none. -/
theorem count_take_encoded {cs before : List Char} {n : ℕ} (h : Utf8.EndsAt cs n before) :
    ((encoded cs).take n).count lineFeed = before.count '\n' := by
  obtain ⟨after, rfl⟩ := h.leading
  have hsize := h.size_le
  rw [encoded_append, List.take_append, List.count_append, length_encoded,
    List.take_of_length_le (by rwa [length_encoded]), count_encoded, Nat.add_eq_left,
    List.count_eq_zero]
  cases after with
  | nil => simp [encoded]
  | cons c rest =>
    have hnext := h.lt_next rfl
    rw [encoded_cons, List.take_append_of_le_length (by rw [length_codeBytes]; omega)]
    by_cases hc : c = '\n'
    · subst hc
      have hone : '\n'.utf8Size = 1 := rfl
      have hzero : n - Utf8.size before = 0 := by omega
      rw [hzero, List.take_zero]
      exact List.not_mem_nil
    · exact fun hmem => lineFeed_notMem_codeBytes hc (List.mem_of_mem_take hmem)

/-! ## Texts of any length -/

theorem saturate_le_saturate {m n : ℕ} (h : m ≤ n) : saturate m ≤ saturate n := by
  rw [UInt32.le_iff_toNat_le]
  by_cases hn : n < UInt32.size
  · rwa [toNat_saturate hn, toNat_saturate (h.trans_lt hn)]
  · have hcut : (saturate n).toNat = UInt32.size - 1 := by
      rw [saturate, if_neg hn]
      rfl
    have hword := (saturate m).toNat_lt_size
    omega

/-- What holds of the entries for a text of any length. -/
structure Ordered (ix : LineIndex) (source : String) : Prop where
  /-- A pass over the bytes finds the entries. -/
  entries : ix.starts.toList =
    0 :: ((bytes source).idxsOf lineFeed).map fun p => saturate (p + 1)
  size : ix.starts.size = (bytes source).count lineFeed + 1
  first : ix.starts[0]? = some 0
  sorted : ix.starts.toList.Pairwise (· ≤ ·)

theorem toList_starts (source : String) :
    (ofSource source).starts.toList = (lineStarts source.toList).map saturate :=
  rfl

theorem ofSource_ordered (source : String) : (ofSource source).Ordered source where
  entries := by
    rw [toList_starts, lineStarts_eq, List.map_cons, List.map_map]
    rfl
  size := by rw [size_starts, bytes_eq, count_encoded]
  first := by
    rw [starts_getElem?]
    rfl
  sorted := by
    rw [toList_starts, List.pairwise_map]
    exact (pairwise_lineStarts source).imp fun h => saturate_le_saturate h.le

/-! ## Texts whose positions are words -/

/-- What holds of the entries, and of the lines found by them, if every position of the
text is a word. -/
structure Exact (ix : LineIndex) (source : String) : Prop where
  increasing : ix.starts.toList.Pairwise (· < ·)
  follows : ∀ n, n ∈ ix.starts.toList.tail.map UInt32.toNat ↔
    ∃ p, (bytes source)[p]? = some lineFeed ∧ n = p + 1
  boundary : ∀ s ∈ ix.starts,
    Utf8.Boundary source.toList s.toNat ∧ s.toNat ≤ source.utf8ByteSize
  index : ∀ offset : UInt32,
    ix.lineIndexOf offset = ((bytes source).take offset.toNat).count lineFeed
  /-- An offset that is an entry has the index of the entry. -/
  found : ∀ (offset : UInt32) (i : ℕ), ix.starts[i]? = some offset → ix.lineIndexOf offset = i
  /-- Any other offset has the index before the one at which it would be inserted. -/
  missing : ∀ (offset : UInt32) (i : ℕ), i ≤ ix.starts.size →
    (∀ j s, ix.starts[j]? = some s → s ≠ offset ∧ (s < offset ↔ j < i)) →
    ix.lineIndexOf offset = i - 1

section Fits

variable {source : String} (hsource : source.utf8ByteSize < UInt32.size)
include hsource

theorem map_toNat_starts :
    (ofSource source).starts.toList.map UInt32.toNat = lineStarts source.toList := by
  rw [toList_starts, List.map_map]
  conv => rhs; rw [← List.map_id (lineStarts source.toList)]
  apply List.map_congr_left
  intro s hs
  exact toNat_saturate ((le_utf8ByteSize_of_mem_lineStarts hs).trans_lt hsource)

theorem pairwise_starts : (ofSource source).starts.toList.Pairwise (· < ·) := by
  have hpairwise := pairwise_lineStarts source
  rw [← map_toNat_starts hsource, List.pairwise_map] at hpairwise
  exact hpairwise.imp UInt32.lt_iff_toNat_lt.mpr

/-- Entries compare as their indices do. -/
theorem starts_le_iff {i j : ℕ} {s t : UInt32} (hs : (ofSource source).starts[i]? = some s)
    (ht : (ofSource source).starts[j]? = some t) : s ≤ t ↔ i ≤ j := by
  obtain ⟨hi, rfl⟩ := Array.getElem?_eq_some_iff.mp hs
  obtain ⟨hj, rfl⟩ := Array.getElem?_eq_some_iff.mp ht
  have hlt := List.pairwise_iff_getElem.mp (pairwise_starts hsource)
  constructor
  · intro hle
    by_contra hji
    exact UInt32.not_lt.mpr hle (hlt j i hj hi (Nat.lt_of_not_le hji))
  · intro hle
    rcases hle.eq_or_lt with rfl | hij
    · exact UInt32.le_refl _
    · exact UInt32.le_of_lt (hlt i j hi hj hij)

theorem mem_tail_starts_iff (n : ℕ) :
    n ∈ (ofSource source).starts.toList.tail.map UInt32.toNat ↔
      ∃ p, (bytes source)[p]? = some lineFeed ∧ n = p + 1 := by
  rw [List.map_tail, map_toNat_starts hsource, lineStarts_eq, List.tail_cons, List.mem_map]
  refine exists_congr fun p => and_congr ?_ eq_comm
  rw [List.mem_idxsOf_iff_exists_getElem_pos, List.getElem?_eq_some_iff]
  simp

theorem lineIndexOf_eq_count_take (offset : UInt32) :
    (ofSource source).lineIndexOf offset =
      ((bytes source).take offset.toNat).count lineFeed := by
  obtain ⟨before, hbefore⟩ := Utf8.exists_endsAt source.toList offset.toNat
  rw [lineIndexOf_eq_count hbefore (.inl hsource), bytes_eq, count_take_encoded hbefore]

theorem ofSource_exact : (ofSource source).Exact source where
  increasing := pairwise_starts hsource
  follows := mem_tail_starts_iff hsource
  boundary := by
    intro s hs
    have hmem : s.toNat ∈ lineStarts source.toList := by
      rw [← map_toNat_starts hsource]
      exact List.mem_map_of_mem hs.val
    exact ⟨exists_part_of_mem_lineStarts hmem, le_utf8ByteSize_of_mem_lineStarts hmem⟩
  index := lineIndexOf_eq_count_take hsource
  found := by
    intro offset i hi
    have hsize := (Array.getElem?_eq_some_iff.mp hi).choose
    apply lineIndexOf_eq (k := i + 1) hsize
    intro j s hs
    rw [starts_le_iff hsource hs hi, Nat.lt_succ_iff]
  missing := by
    intro offset i hi hinsert
    apply lineIndexOf_eq hi
    intro j s hs
    obtain ⟨hne, hlt⟩ := hinsert j s hs
    rw [← hlt]
    constructor
    · exact fun hle => UInt32.lt_of_le_of_ne hle hne
    · exact UInt32.le_of_lt

end Fits

/-- The entries of a line index begin with zero and do not decrease, one for each line feed
byte behind it. If every position of the text is a word, they increase, are the boundaries
behind the line feed bytes, and lead every offset to the number of line feed bytes before
it. -/
theorem starts_follow_lineFeeds (source : String) :
    (ofSource source).Ordered source ∧
      (source.utf8ByteSize ≤ UInt32.size - 1 → (ofSource source).Exact source) := by
  refine ⟨ofSource_ordered source, ?_⟩
  intro hsource
  have hsize : UInt32.size = 4294967296 := rfl
  exact ofSource_exact (by omega)

/-- The code point of the first character ends in the byte of a line feed. The offset three
starts the second line, and the offset two lies behind the start of the first. -/
theorem starts_follow_lineFeeds_wide :
    let source := "Ċ\n\nx"
    let ix := ofSource source
    source.utf8ByteSize ≤ UInt32.size - 1 ∧ ix.Ordered source ∧ ix.Exact source ∧
      ix.starts = #[0, 3, 4] ∧ ix.lineIndexOf 3 = 1 ∧ ix.lineIndexOf 2 = 0 := by
  intro source ix
  have hsource : source.utf8ByteSize ≤ UInt32.size - 1 := by decide
  obtain ⟨hordered, hexact⟩ := starts_follow_lineFeeds source
  have hstarts : ix.starts = #[0, 3, 4] := by decide
  have hsecond : ix.starts[1]? = some 3 := by rw [hstarts]; rfl
  have hinsert : ∀ (j : ℕ) (s : UInt32),
      ix.starts[j]? = some s → s ≠ 2 ∧ (s < 2 ↔ j < 1) := by
    rw [hstarts]
    intro j s hj
    rcases j with _ | _ | _ | j
    all_goals cases hj
    all_goals decide
  have hone : 1 ≤ ix.starts.size := by rw [hstarts]; decide
  exact ⟨hsource, hordered, hexact hsource, hstarts, (hexact hsource).found 3 1 hsecond,
    (hexact hsource).missing 2 1 hone hinsert⟩

end LineIndex

end AssertionLint
