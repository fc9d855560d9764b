import AssertionLint.Text.Utf8
import Mathlib.Data.List.Infix
import Mathlib.Tactic

/-!
# Boundaries between characters

A boundary of a text is the number of bytes of one of its leading parts. The
last boundary up to a byte belongs to the longest leading part that fits, and
cutting the text at boundaries gives back the parts it was put together from. It
cannot be cut anywhere else.
-/

namespace AssertionLint.Utf8

theorem utf8ByteSize_eq_size (s : String) : s.utf8ByteSize = size s.toList := by
  have h : ∀ cs : List Char, (String.ofList cs).utf8ByteSize = size cs := by
    intro cs
    induction cs with
    | nil => rfl
    | cons c cs ih => simp [String.ofList_cons, String.utf8ByteSize_append, ih]
  rw [← h, String.ofList_toList]

theorem length_le_size (cs : List Char) : cs.length ≤ size cs := by
  induction cs with
  | nil => exact le_rfl
  | cons c cs ih =>
    have hc := c.utf8Size_pos
    simp only [List.length_cons, size_cons]
    omega

theorem size_le_of_isPrefix {part cs : List Char} (h : part.IsPrefix cs) :
    size part ≤ size cs := by
  obtain ⟨rest, rfl⟩ := h
  rw [size_append]
  exact Nat.le_add_right _ _

/-- `before` is the leading part of `cs` that ends at the last boundary not after
byte `n`. -/
structure EndsAt (cs : List Char) (n : ℕ) (before : List Char) : Prop where
  leading : before.IsPrefix cs
  size_le : size before ≤ n
  last : ∀ part : List Char, part.IsPrefix cs → size part ≤ n → size part ≤ size before

theorem exists_endsAt (cs : List Char) (n : ℕ) : ∃ before, EndsAt cs n before := by
  induction cs generalizing n with
  | nil =>
    refine ⟨[], List.prefix_rfl, Nat.zero_le n, ?_⟩
    intro part hpart _
    rw [List.prefix_nil.mp hpart]
  | cons c cs ih =>
    by_cases hc : c.utf8Size ≤ n
    · obtain ⟨before, hlead, hsize, hlast⟩ := ih (n - c.utf8Size)
      refine ⟨c :: before, (List.prefix_cons_inj c).mpr hlead, by rw [size_cons]; omega, ?_⟩
      intro part hpart hn
      rcases List.prefix_cons_iff.mp hpart with rfl | ⟨rest, rfl, hrest⟩
      · exact Nat.zero_le _
      · rw [size_cons] at hn
        have hle := hlast rest hrest (by omega)
        simpa using hle
    · refine ⟨[], List.nil_prefix, Nat.zero_le n, ?_⟩
      intro part hpart hn
      rcases List.prefix_cons_iff.mp hpart with rfl | ⟨rest, rfl, -⟩
      · exact le_rfl
      · rw [size_cons] at hn
        omega

theorem endsAt_of_isPrefix {cs part : List Char} (h : part.IsPrefix cs) :
    EndsAt cs (size part) part :=
  ⟨h, le_rfl, fun _ _ hsize => hsize⟩

/-- Only the next character could have carried the part beyond byte `n`. -/
theorem EndsAt.lt_next {cs before rest : List Char} {n : ℕ} {c : Char}
    (h : EndsAt cs n before) (hcs : cs = before ++ c :: rest) :
    n < size before + c.utf8Size := by
  by_contra hle
  have hpart : (before ++ [c]).IsPrefix cs := ⟨rest, by simp [hcs]⟩
  have hsize := h.last _ hpart (by simpa using hle)
  have hc := c.utf8Size_pos
  simp only [size_append, size_cons, size_nil] at hsize
  omega

/-- Past the end of the text nothing changes. -/
theorem EndsAt.of_min {cs before : List Char} {n : ℕ}
    (h : EndsAt cs (min n (size cs)) before) : EndsAt cs n before := by
  refine ⟨h.leading, h.size_le.trans (min_le_left _ _), ?_⟩
  intro part hpart hn
  exact h.last part hpart (le_min hn (size_le_of_isPrefix hpart))

theorem floor_eq_size {before after : List Char} {n : ℕ} (hle : size before ≤ n)
    (hnext : ∀ c rest, after = c :: rest → n < size before + c.utf8Size) :
    floor (before ++ after) n = size before := by
  induction before generalizing n with
  | nil =>
    cases after with
    | nil => rfl
    | cons c rest =>
      have hc := hnext c rest rfl
      rw [size_nil] at hc
      rw [List.nil_append, floor, if_neg (by omega), size_nil]
  | cons b before ih =>
    rw [size_cons] at hle hnext
    rw [List.cons_append, floor, if_pos (by omega), ih, size_cons]
    · omega
    · intro c rest hc
      have := hnext c rest hc
      omega

theorem EndsAt.floor_eq {cs before : List Char} {n : ℕ} (h : EndsAt cs n before) :
    floor cs n = size before := by
  obtain ⟨after, hcs⟩ := h.leading
  rw [← hcs]
  apply floor_eq_size h.size_le
  rintro c rest rfl
  exact h.lt_next hcs.symm

theorem dropBytes?_append (cs ds : List Char) : dropBytes? (size cs) (cs ++ ds) = some ds := by
  induction cs with
  | nil => cases ds <;> simp [dropBytes?]
  | cons c cs ih =>
    have hc := c.utf8Size_pos
    rw [List.cons_append, dropBytes?, size_cons, if_neg (by omega), if_pos (by omega),
      Nat.add_sub_cancel_left, ih]

theorem takeBytes?_append (cs ds : List Char) : takeBytes? (size cs) (cs ++ ds) = some cs := by
  induction cs with
  | nil => cases ds <;> simp [takeBytes?]
  | cons c cs ih =>
    have hc := c.utf8Size_pos
    rw [List.cons_append, takeBytes?, size_cons, if_neg (by omega), if_pos (by omega),
      Nat.add_sub_cancel_left, ih]
    rfl

/-- A part of a text lies between the boundary before it and the one after it. -/
theorem slice?_append (cs ds es : List Char) :
    slice? (cs ++ ds ++ es) (size cs) (size (cs ++ ds)) = some ds := by
  rw [slice?, if_pos (by simp), List.append_assoc, dropBytes?_append, size_append,
    Nat.add_sub_cancel_left]
  exact takeBytes?_append ds es

/-! ## Cuts -/

theorem dropBytes?_eq_some_iff {n : ℕ} {cs rest : List Char} :
    dropBytes? n cs = some rest ↔ ∃ before, cs = before ++ rest ∧ size before = n := by
  constructor
  · intro h
    induction cs generalizing n with
    | nil =>
      rw [dropBytes?] at h
      split at h
      · cases h
        exact ⟨[], rfl, by simp [*]⟩
      · cases h
    | cons c cs ih =>
      rw [dropBytes?] at h
      split_ifs at h with hzero hfits
      · cases h
        exact ⟨[], rfl, hzero.symm⟩
      · obtain ⟨before, hcs, hsize⟩ := ih h
        refine ⟨c :: before, congrArg (c :: ·) hcs, ?_⟩
        rw [size_cons]
        omega
  · rintro ⟨before, rfl, rfl⟩
    exact dropBytes?_append before rest

theorem takeBytes?_eq_some_iff {n : ℕ} {cs part : List Char} :
    takeBytes? n cs = some part ↔ ∃ rest, cs = part ++ rest ∧ size part = n := by
  constructor
  · intro h
    induction cs generalizing n part with
    | nil =>
      rw [takeBytes?] at h
      split at h
      · cases h
        exact ⟨[], rfl, by simp [*]⟩
      · cases h
    | cons c cs ih =>
      rw [takeBytes?] at h
      split_ifs at h with hzero hfits
      · cases h
        exact ⟨c :: cs, rfl, hzero.symm⟩
      · obtain ⟨tail, htail, rfl⟩ := Option.map_eq_some_iff.mp h
        obtain ⟨rest, hcs, hsize⟩ := ih htail
        refine ⟨rest, congrArg (c :: ·) hcs, ?_⟩
        rw [size_cons]
        omega
  · rintro ⟨rest, rfl, rfl⟩
    exact takeBytes?_append part rest

/-- What is cut out of a text stands between two boundaries of it. -/
theorem slice?_eq_some_iff {cs part : List Char} {start stop : ℕ} :
    slice? cs start stop = some part ↔
      ∃ before after, cs = before ++ part ++ after ∧ size before = start ∧
        size (before ++ part) = stop := by
  constructor
  · intro h
    rw [slice?] at h
    split_ifs at h with hle
    obtain ⟨rest, hdrop, htake⟩ := Option.bind_eq_some_iff.mp h
    obtain ⟨before, rfl, hbefore⟩ := dropBytes?_eq_some_iff.mp hdrop
    obtain ⟨after, rfl, hpart⟩ := takeBytes?_eq_some_iff.mp htake
    refine ⟨before, after, (List.append_assoc before part after).symm, hbefore, ?_⟩
    rw [size_append]
    omega
  · rintro ⟨before, after, rfl, rfl, rfl⟩
    exact slice?_append before part after

end AssertionLint.Utf8
