import AssertionLint.Ty
import AssertionLint.Proofs.TypeNames

/-!
# Outlines of types

The text of a type is read here as a sequence of characters. An outline keeps what the
text of a type shows, and leaves out what stands behind declared types and type
parameters. The first characters of a text tell the kind of the type, and how many
results a function type has can be seen where they would begin.
-/

namespace AssertionLint

/-- A type as its text shows it: declared types and type parameters are names. -/
inductive Outline where
  | basic (kind : Predeclared)
  | atom (name : String)
  | pointer (elem : Outline)
  | slice (elem : Outline)
  | array (size : UInt64) (elem : Outline)
  | map (key value : Outline)
  | struct (fields : List (String × Outline))
  | interface (methods : List String) (terms : List Outline)
  | func (params results : List Outline)

namespace Ty

open Text (behind ends kindOf opens opens_of_isWord)

mutual

/-- What is left of a type without what stands behind its names. -/
def outline : Ty → Outline
  | basic k => .basic k
  | named n _ => .atom n
  | param n _ => .atom n
  | pointer t => .pointer t.outline
  | slice t => .slice t.outline
  | array s t => .array s t.outline
  | map k v => .map k.outline v.outline
  | struct fs => .struct (fieldOutlines fs)
  | interface ms ts => .interface ms (outlines ts)
  | func ps rs => .func (outlines ps) (outlines rs)

def outlines : List Ty → List Outline
  | [] => []
  | t :: ts => t.outline :: outlines ts

def fieldOutlines : List (String × Ty) → List (String × Outline)
  | [] => []
  | (n, t) :: fs => (n, t.outline) :: fieldOutlines fs

end

/-- All names that the text of a type shows are identifiers. -/
inductive WellNamed : Ty → Prop
  | basic {k : Predeclared} : WellNamed (basic k)
  | named {n : String} {t : Ty} : Identifier n → WellNamed (named n t)
  | param {n : String} {t : Ty} : Identifier n → WellNamed (param n t)
  | pointer {t : Ty} : WellNamed t → WellNamed (pointer t)
  | slice {t : Ty} : WellNamed t → WellNamed (slice t)
  | array {s : UInt64} {t : Ty} : WellNamed t → WellNamed (array s t)
  | map {k v : Ty} : WellNamed k → WellNamed v → WellNamed (map k v)
  | struct {fs : List (String × Ty)} :
    (∀ f ∈ fs, Identifier f.1) → (∀ f ∈ fs, WellNamed f.2) → WellNamed (struct fs)
  | interface {ms : List String} {ts : List Ty} :
    (∀ m ∈ ms, Identifier m) → (∀ t ∈ ts, WellNamed t) → WellNamed (interface ms ts)
  | func {ps rs : List Ty} :
    (∀ p ∈ ps, WellNamed p) → (∀ r ∈ rs, WellNamed r) → WellNamed (func ps rs)

def fieldOutline (f : String × Ty) : String × Outline := (f.1, f.2.outline)

theorem outlines_eq (ts : List Ty) : outlines ts = ts.map outline := by
  induction ts with
  | nil => rfl
  | cons t ts ih => exact congrArg (t.outline :: ·) ih

theorem fieldOutlines_eq (fs : List (String × Ty)) :
    fieldOutlines fs = fs.map fieldOutline := by
  induction fs with
  | nil => rfl
  | cons f fs ih => exact congrArg (fieldOutline f :: ·) ih

theorem outline_struct (fs : List (String × Ty)) :
    (struct fs).outline = .struct (fs.map fieldOutline) :=
  congrArg Outline.struct (fieldOutlines_eq fs)

theorem outline_interface (ms : List String) (ts : List Ty) :
    (interface ms ts).outline = .interface ms (ts.map outline) :=
  congrArg (Outline.interface ms) (outlines_eq ts)

theorem outline_func (ps rs : List Ty) :
    (func ps rs).outline = .func (ps.map outline) (rs.map outline) :=
  congrArg₂ Outline.func (outlines_eq ps) (outlines_eq rs)

theorem texts_eq (ts : List Ty) : texts ts = ts.map text := by
  induction ts with
  | nil => rfl
  | cons t ts ih => exact congrArg (t.text :: ·) ih

theorem fieldTexts_eq (fs : List (String × Ty)) :
    fieldTexts fs = fs.map fun f => f.1 ++ " " ++ f.2.text := by
  induction fs with
  | nil => rfl
  | cons f fs ih => exact congrArg ((f.1 ++ " " ++ f.2.text) :: ·) ih

/-! ## Texts as characters -/

def chars (t : Ty) : List Char := t.text.toList

def fieldChars (f : String × Ty) : List Char := f.1.toList ++ ' ' :: f.2.chars

def methodChars (m : String) : List Char := m.toList ++ ['(', ')']

/-- What stands behind the terms of an interface. -/
def behindTerms (ms : List String) : List Char :=
  behind "; ".toList (ms.map methodChars) ++ ['\x7d']

def resultChars : List Ty → List Char
  | [] => []
  | [t] => ' ' :: t.chars
  | ts => ' ' :: '(' :: ((", ".toList).intercalate (ts.map chars) ++ [')'])

theorem map_toList_texts (ts : List Ty) : (texts ts).map String.toList = ts.map chars := by
  rw [texts_eq, List.map_map]
  rfl

theorem chars_pointer (t : Ty) : (pointer t).chars = '*' :: t.chars := by
  change ("*" ++ t.text).toList = _
  simp [chars]

theorem chars_slice (t : Ty) : (slice t).chars = '[' :: ']' :: t.chars := by
  change ("[]" ++ t.text).toList = _
  simp [chars]

theorem chars_array (s : UInt64) (t : Ty) :
    (array s t).chars = '[' :: ((toString s.toNat).toList ++ ']' :: t.chars) := by
  change ("[" ++ toString s.toNat ++ "]" ++ t.text).toList = _
  simp [chars]

theorem chars_map (k v : Ty) :
    (map k v).chars = "map[".toList ++ (k.chars ++ ']' :: v.chars) := by
  change ("map[" ++ k.text ++ "]" ++ v.text).toList = _
  simp [chars]

theorem chars_struct (fs : List (String × Ty)) :
    (struct fs).chars =
      "struct\x7b".toList ++ ("; ".toList.intercalate (fs.map fieldChars) ++ ['\x7d']) := by
  have hfields : (fieldTexts fs).map String.toList = fs.map fieldChars := by
    rw [fieldTexts_eq, List.map_map]
    apply List.map_congr_left
    intro f _
    simp [fieldChars, chars]
  change ("struct\x7b" ++ String.intercalate "; " (fieldTexts fs) ++ "\x7d").toList = _
  simp [hfields]

theorem map_toList_methods (ms : List String) :
    (ms.map (· ++ "()")).map String.toList = ms.map methodChars := by
  rw [List.map_map]
  apply List.map_congr_left
  intro m _
  simp [methodChars]

theorem chars_interface_nil (ms : List String) :
    (interface ms []).chars =
      "interface\x7b".toList ++ ("; ".toList.intercalate (ms.map methodChars) ++ ['\x7d']) := by
  rw [← map_toList_methods]
  change ("interface\x7b" ++ String.intercalate "; " (ms.map (· ++ "()")) ++ "\x7d").toList = _
  simp

theorem chars_interface_cons (ms : List String) (t : Ty) (ts : List Ty) :
    (interface ms (t :: ts)).chars =
      "interface\x7b".toList ++
        (" | ".toList.intercalate ((t :: ts).map chars) ++ behindTerms ms) := by
  rw [behindTerms, ← map_toList_methods, ← map_toList_texts]
  change ("interface\x7b" ++ String.intercalate "; "
    (String.intercalate " | " (texts (t :: ts)) :: ms.map (· ++ "()")) ++ "\x7d").toList = _
  simp [Text.intercalate_cons]

theorem toList_resultText (ts : List Ty) : (resultText (texts ts)).toList = resultChars ts := by
  rcases ts with _ | ⟨t, _ | ⟨u, ts⟩⟩
  · rfl
  · change (" " ++ t.text).toList = ' ' :: t.chars
    simp [chars]
  · change (" (" ++ String.intercalate ", " (texts (t :: u :: ts)) ++ ")").toList =
      ' ' :: '(' :: ((", ".toList).intercalate ((t :: u :: ts).map chars) ++ [')'])
    rw [← map_toList_texts]
    simp

theorem chars_func (ps rs : List Ty) :
    (func ps rs).chars =
      "func(".toList ++ (", ".toList.intercalate (ps.map chars) ++ ')' :: resultChars rs) := by
  rw [← map_toList_texts, ← toList_resultText]
  change ("func(" ++ String.intercalate ", " (texts ps) ++ ")" ++
    resultText (texts rs)).toList = _
  simp

/-! ## First characters -/

def kind : Ty → Kind
  | basic _ => .name
  | named .. => .name
  | param .. => .name
  | pointer _ => .pointer
  | slice _ => .slice
  | array .. => .array
  | map .. => .map
  | struct _ => .struct
  | interface .. => .interface
  | func .. => .func

theorem isName_chars {t : Ty} (ht : t.WellNamed) (hk : t.kind = .name) :
    Text.IsName t.chars := by
  cases ht with
  | basic => exact Predeclared.isName _
  | named hn | param hn => exact hn.isName
  | _ => cases hk

theorem exists_decimal (n : ℕ) :
    ∃ d ds, (toString n).toList = d :: ds ∧ d.isDigit = true := by
  cases hd : (toString n).toList with
  | nil =>
    rw [Nat.toString_eq_ofList_toDigits, String.toList_ofList] at hd
    exact absurd hd Nat.toDigits_ne_nil
  | cons d ds => exact ⟨d, ds, rfl, Text.isDigit_of_mem_decimal (hd ▸ List.mem_cons_self)⟩

theorem exists_chars_interface (ms : List String) (ts : List Ty) :
    ∃ cs, (interface ms ts).chars = "interface\x7b".toList ++ cs := by
  cases ts with
  | nil => exact ⟨_, chars_interface_nil ms⟩
  | cons t ts => exact ⟨_, chars_interface_cons ms t ts⟩

/-- The kind of a type can be seen from its first characters. -/
theorem kindOf_chars {t : Ty} (ht : t.WellNamed) {r : List Char} (hr : ends r = true) :
    kindOf (t.chars ++ r) = t.kind := by
  cases t with
  | basic | named | param => exact (isName_chars ht rfl).kindOf_append hr
  | pointer t =>
    rw [chars_pointer]
    rfl
  | slice t =>
    rw [chars_slice]
    rfl
  | array s t =>
    obtain ⟨d, ds, hd, hdigit⟩ := exists_decimal s.toNat
    have hne : d ≠ ']' := by
      rintro rfl
      cases hdigit
    rw [chars_array, hd]
    simp [kindOf, hne, kind]
  | map k v =>
    rw [chars_map]
    rfl
  | struct fs =>
    rw [chars_struct]
    rfl
  | interface ms ts =>
    obtain ⟨cs, hcs⟩ := exists_chars_interface ms ts
    rw [hcs]
    rfl
  | func ps rs =>
    rw [chars_func]
    rfl

theorem exists_opens {t : Ty} (ht : t.WellNamed) :
    ∃ c cs, t.chars = c :: cs ∧ opens c = true := by
  cases t with
  | basic | named | param =>
    obtain ⟨c, cs, hcs, hc⟩ := (isName_chars ht rfl).exists_cons
    exact ⟨c, cs, hcs, opens_of_isWord hc⟩
  | pointer t => exact ⟨_, _, chars_pointer t, rfl⟩
  | slice t => exact ⟨_, _, chars_slice t, rfl⟩
  | array s t => exact ⟨_, _, chars_array s t, rfl⟩
  | map k v => exact ⟨_, _, chars_map k v, rfl⟩
  | struct fs => exact ⟨_, _, chars_struct fs, rfl⟩
  | interface ms ts =>
    obtain ⟨cs, hcs⟩ := exists_chars_interface ms ts
    exact ⟨_, _, hcs, rfl⟩
  | func ps rs => exact ⟨_, _, chars_func ps rs, rfl⟩

theorem not_isPrefix_chars {t : Ty} (ht : t.WellNamed) {c : Char} (hc : opens c = false)
    (r : List Char) : ¬ t.chars.IsPrefix (c :: r) := by
  obtain ⟨d, ds, hd, hopens⟩ := exists_opens ht
  rintro ⟨rest, h⟩
  rw [hd, List.cons_append] at h
  rw [(List.cons.inj h).1, hc] at hopens
  cases hopens

theorem exists_behindTerms (ms : List String) :
    ∃ c cs, behindTerms ms = c :: cs ∧ (c = ';' ∨ c = '\x7d') := by
  cases ms with
  | nil => exact ⟨_, _, rfl, .inr rfl⟩
  | cons m ms => exact ⟨_, _, rfl, .inl rfl⟩

theorem ends_behindTerms (ms : List String) (r : List Char) :
    ends (behindTerms ms ++ r) = true := by
  obtain ⟨c, cs, hms, rfl | rfl⟩ := exists_behindTerms ms <;> rw [hms] <;> rfl

theorem not_isPrefix_behindTerms {t : Ty} (ht : t.WellNamed) (ms : List String)
    (r : List Char) : ¬ t.chars.IsPrefix (behindTerms ms ++ r) := by
  obtain ⟨c, cs, hms, rfl | rfl⟩ := exists_behindTerms ms <;> rw [hms] <;>
    exact not_isPrefix_chars ht rfl _

theorem not_bar_isPrefix_behindTerms (ms : List String) (r : List Char) :
    ¬ " | ".toList.IsPrefix (behindTerms ms ++ r) := by
  obtain ⟨c, cs, hms, rfl | rfl⟩ := exists_behindTerms ms <;> rw [hms] <;> simp

/-- How many results there are at the start of a text, counted up to two. -/
def resultCount : List Char → ℕ
  | ' ' :: '(' :: _ => 2
  | ' ' :: '|' :: _ => 0
  | ' ' :: _ => 1
  | _ => 0

theorem resultCount_of_ends {r : List Char} (hr : ends r = true) : resultCount r = 0 := by
  cases r with
  | nil => rfl
  | cons c r =>
    rw [ends, Bool.or_eq_true, Bool.and_eq_true] at hr
    rcases hr with hcloses | ⟨hblank, hbar⟩
    · have hne : c ≠ ' ' := by
        rintro rfl
        cases hcloses
      simp [resultCount, hne]
    · obtain rfl := eq_of_beq hblank
      obtain ⟨s, rfl⟩ := List.head?_eq_some_iff.mp (eq_of_beq hbar)
      rfl

theorem resultCount_append {ts : List Ty} (hts : ∀ t ∈ ts, t.WellNamed) {r : List Char}
    (hr : ends r = true) : resultCount (resultChars ts ++ r) = min ts.length 2 := by
  rcases ts with _ | ⟨t, _ | ⟨u, ts⟩⟩
  · exact resultCount_of_ends hr
  · obtain ⟨c, cs, hcs, hc⟩ := exists_opens (hts t List.mem_cons_self)
    have hparen : c ≠ '(' := by
      rintro rfl
      cases hc
    have hbar : c ≠ '|' := by
      rintro rfl
      cases hc
    simp [resultChars, hcs, resultCount, hparen, hbar]
  · simp [resultChars, resultCount]

theorem resultChars_of_two_le {ts : List Ty} (h : 2 ≤ ts.length) :
    resultChars ts = ' ' :: '(' :: (", ".toList.intercalate (ts.map chars) ++ [')']) := by
  rcases ts with _ | ⟨t, _ | ⟨u, ts⟩⟩
  · cases h
  · exact absurd h (by simp)
  · rfl

end Ty

end AssertionLint
