import AssertionLint.Finding
import Mathlib.Data.List.Lex
import Mathlib.Data.Prod.Lex
import Mathlib.Data.String.Basic
import Mathlib.Order.Compare
import Mathlib.Tactic

/-!
# Findings in the order of their bytes

Texts compare by code points. Reports are read byte by byte, so the order that
counts is the one on the UTF-8 encoding. The two agree because the encoding of
a larger code point is larger at the first byte where two encodings differ,
whatever follows them.

A finding is ordered by its key: start and end of the span, then the bytes of
the rule's name and those of the message. Keys live in a lexicographic product
of linear orders, so everything about sorting is argued on keys.
-/

namespace AssertionLint.Text

/-- The UTF-8 bytes of a text, as numbers. -/
def bytes (s : String) : List ℕ := s.toByteArray.data.toList.map UInt8.toNat

/-- The bytes that stand for the code point `v`. -/
def codeBytes (v : ℕ) : List ℕ :=
  if v < 0x80 then [v]
  else if v < 0x800 then [0xc0 + v / 64, 0x80 + v % 64]
  else if v < 0x10000 then [0xe0 + v / 4096, 0x80 + v / 64 % 64, 0x80 + v % 64]
  else [0xf0 + v / 262144, 0x80 + v / 4096 % 64, 0x80 + v / 64 % 64, 0x80 + v % 64]

theorem utf8EncodeChar_toNat (c : Char) :
    (String.utf8EncodeChar c).map UInt8.toNat = codeBytes c.toNat := by
  have hc : c.toNat < 0x110000 := by
    rcases c.valid with h | h <;> simp only [Char.toNat] <;> omega
  have hv : c.val.toNat = c.toNat := rfl
  unfold String.utf8EncodeChar codeBytes
  simp only [hv]
  split_ifs <;> simp <;> omega

/-- The bytes of several characters. -/
def encoded (cs : List Char) : List ℕ := cs.flatMap fun c => codeBytes c.toNat

theorem encoded_cons (c : Char) (cs : List Char) :
    encoded (c :: cs) = codeBytes c.toNat ++ encoded cs :=
  List.flatMap_cons

theorem encoded_append (cs ds : List Char) : encoded (cs ++ ds) = encoded cs ++ encoded ds :=
  List.flatMap_append

theorem bytes_eq (s : String) : bytes s = encoded s.toList := by
  have h : s.toByteArray = (s.toList.flatMap String.utf8EncodeChar).toByteArray := by
    conv => lhs; rw [← String.ofList_toList (s := s)]
    rfl
  simp only [bytes, h, List.data_toByteArray, List.map_flatMap, utf8EncodeChar_toNat, encoded]

theorem codeBytes_ne_nil (v : ℕ) : codeBytes v ≠ [] := by
  unfold codeBytes
  split_ifs <;> simp

/-- The order of two code points shows in their bytes alone, so what follows
them plays no part. -/
theorem codeBytes_append_lt {v w : ℕ} (h : v < w) (xs ys : List ℕ) :
    codeBytes v ++ xs < codeBytes w ++ ys := by
  unfold codeBytes
  split_ifs <;> simp only [List.cons_append, List.nil_append, List.cons_lt_cons_iff] <;> omega

theorem encoded_lt {cs ds : List Char} (h : cs < ds) : encoded cs < encoded ds := by
  induction h with
  | @nil d ds =>
    obtain ⟨b, bs, hb⟩ := List.exists_cons_of_ne_nil (codeBytes_ne_nil d.toNat)
    rw [encoded_cons, hb, List.cons_append]
    exact List.nil_lt_cons _ _
  | @rel c cs d ds hcd =>
    rw [encoded_cons, encoded_cons]
    exact codeBytes_append_lt hcd _ _
  | @cons c cs ds _ ih =>
    rw [encoded_cons, encoded_cons]
    exact List.append_left_lt ih

/-- Comparing texts by code points is comparing them by bytes. -/
theorem bytes_strictMono : StrictMono bytes := by
  intro s t h
  rw [bytes_eq, bytes_eq]
  exact encoded_lt h

theorem bytes_inj {s t : String} : bytes s = bytes t ↔ s = t :=
  bytes_strictMono.injective.eq_iff

theorem compare_eq_lt_iff {s t : String} : compare s t = .lt ↔ bytes s < bytes t := by
  rw [bytes_strictMono.lt_iff_lt]
  exact compareOfLessAndEq_eq_lt

end AssertionLint.Text

namespace AssertionLint.Finding

/-- What findings are ordered by. -/
abbrev Key := ℕ ×ₗ ℕ ×ₗ List ℕ ×ₗ List ℕ

def key (f : Finding) : Key :=
  toLex (f.span.start.toNat, toLex (f.span.stop.toNat,
    toLex (Text.bytes f.rule, Text.bytes f.message)))

theorem key_eq_iff {f g : Finding} :
    f.key = g.key ↔ f.span = g.span ∧ f.rule = g.rule ∧ f.message = g.message := by
  obtain ⟨r, m, ⟨a, b⟩, x⟩ := f
  obtain ⟨r', m', ⟨a', b'⟩, x'⟩ := g
  simp [key, Text.bytes_inj, UInt32.toNat_inj, and_assoc]

theorem sameReport_eq_true {f g : Finding} : f.sameReport g = true ↔ f.key = g.key := by
  simp [sameReport, key_eq_iff, and_assoc]

theorem order_eq_lt_iff {f g : Finding} : order f g = .lt ↔ f.key < g.key := by
  obtain ⟨r, m, ⟨a, b⟩, x⟩ := f
  obtain ⟨r', m', ⟨a', b'⟩, x'⟩ := g
  have hw : ∀ v w : UInt32, compare v w = .lt ↔ v.toNat < w.toNat := by
    intro v w
    rw [Std.compare_eq_lt, UInt32.lt_iff_toNat_lt]
  have hspan : compare (⟨a, b⟩ : Span) ⟨a', b'⟩ = (compare a a').then (compare b b') := rfl
  simp only [order, compareLex, compareOn, hspan, Ordering.then_eq_lt, Ordering.then_eq_eq,
    Std.compare_eq_iff_eq, hw, Text.compare_eq_lt_iff, key, Prod.Lex.toLex_lt_toLex,
    Text.bytes_inj, UInt32.toNat_inj]
  rw [or_assoc, and_assoc, ← and_or_left]

/-- Sorting by the order on findings is sorting by keys. -/
theorem isLE_order_iff {f g : Finding} : (order f g).isLE = true ↔ f.key ≤ g.key := by
  rw [← not_lt, ← order_eq_lt_iff, ← Std.OrientedCmp.gt_iff_lt]
  cases order f g <;> simp

end AssertionLint.Finding
