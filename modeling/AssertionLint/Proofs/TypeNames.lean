import AssertionLint.Ty.Predeclared
import AssertionLint.Proofs.Separators
import Mathlib.Data.List.Nodup
import Mathlib.Data.List.TakeWhile

/-!
# Names in the texts of types

The name of a declared or predeclared type can be told from what follows it. Some
predeclared types have names of two words, but no name has a place where a type could
end before its end. What kind of type a text begins with is told by its first
characters, as no name begins with one of the words that other types begin with.
-/

namespace AssertionLint

namespace Predeclared

/-- All predeclared types. -/
def all : List Predeclared :=
  [invalid, bool, int, int8, int16, int32, int64, uint, uint8, uint16, uint32, uint64, uintptr,
    float32, float64, complex64, complex128, string, unsafePointer, untypedBool, untypedInt,
    untypedRune, untypedFloat, untypedComplex, untypedString, untypedNil]

theorem mem_all (k : Predeclared) : k ∈ all := by
  cases k <;> decide

theorem nodup_names : (all.map name).Nodup := by
  decide

theorem name_injective : Function.Injective name := by
  intro k k' h
  exact List.inj_on_of_nodup_map nodup_names (mem_all k) (mem_all k') h

end Predeclared

/-- Names that can be declared. -/
structure Identifier (n : String) : Prop where
  nonempty : n ≠ ""
  chars : ∀ c ∈ n.toList, c.isAlphanum = true ∨ c = '_'
  start : ∀ c ∈ n.toList.head?, c.isDigit = false
  notKeyword : n ∉ ["func", "map", "struct", "interface"]
  notPredeclared : ∀ k : Predeclared, k.name ≠ n

theorem identifier_iff {n : String} :
    Identifier n ↔ n ≠ "" ∧ (n.toList.all fun c => c.isAlphanum || c == '_') = true ∧
      (n.toList.head?.all fun c => !c.isDigit) = true ∧
      n ∉ ["func", "map", "struct", "interface"] ∧ ∀ k ∈ Predeclared.all, k.name ≠ n := by
  constructor
  · intro ⟨hne, hc, hs, hk, hp⟩
    exact ⟨hne, by simpa using hc, by simpa [Option.all_eq_true] using hs, hk, fun k _ => hp k⟩
  · intro ⟨hne, hc, hs, hk, hp⟩
    exact ⟨hne, by simpa using hc, by simpa [Option.all_eq_true] using hs, hk,
      fun k => hp k (Predeclared.mem_all k)⟩

instance (n : String) : Decidable (Identifier n) := decidable_of_iff' _ identifier_iff

namespace Text

/-! ## Characters -/

/-- The characters of the words in names. -/
def isWord (c : Char) : Bool := c.isAlphanum || c == '_' || c == '.'

/-- The characters that the text of a type can begin with. -/
def opens (c : Char) : Bool := isWord c || c == '*' || c == '['

/-- The characters at which a type ends whatever follows them. -/
def closes (c : Char) : Bool := ['(', ')', ']', '\x7d', ',', ';'].contains c

/-- Whether a text can follow a type, or the name of a method. -/
def ends : List Char → Bool
  | [] => true
  | c :: cs => closes c || (c == ' ' && cs.head? == some '|')

/-- Whether a text is made of words with single blanks between them. -/
def unbroken : List Char → Bool
  | [] => true
  | c :: cs => (isWord c || (c == ' ' && cs.head?.any isWord)) && unbroken cs

theorem opens_of_isWord {c : Char} (h : isWord c = true) : opens c = true := by
  simp [opens, h]

theorem ends_of_isWord {c : Char} (h : isWord c = true) (cs : List Char) :
    ends (c :: cs) = false := by
  have hcloses : closes c = false := by
    rw [closes, List.contains_eq_mem, decide_eq_false_iff_not]
    intro hm
    simp only [List.mem_cons, List.not_mem_nil, or_false] at hm
    rcases hm with rfl | rfl | rfl | rfl | rfl | rfl <;> cases h
  have hblank : c ≠ ' ' := by
    rintro rfl
    cases h
  simp [ends, hcloses, hblank]

/-- No type ends in front of a word or between two words. -/
theorem ends_of_unbroken {c : Char} {cs : List Char} (h : unbroken (c :: cs) = true)
    (r : List Char) : ends (c :: cs ++ r) = false := by
  simp only [unbroken, Bool.and_eq_true, Bool.or_eq_true, beq_iff_eq] at h
  rcases h.1 with hword | ⟨rfl, hnext⟩
  · exact ends_of_isWord hword _
  · cases cs with
    | nil => cases hnext
    | cons d ds =>
      have hbar : d ≠ '|' := by
        rintro rfl
        cases hnext
      simpa [ends, closes] using hbar

theorem unbroken_append_inj {xs ys r r' : List Char} (hx : unbroken xs = true)
    (hy : unbroken ys = true) (hr : ends r = true) (hr' : ends r' = true)
    (h : xs ++ r = ys ++ r') : xs = ys ∧ r = r' := by
  induction xs generalizing ys with
  | nil =>
    cases ys with
    | nil => exact ⟨rfl, h⟩
    | cons y ys =>
      rw [List.nil_append] at h
      rw [h, ends_of_unbroken hy] at hr
      cases hr
  | cons x xs ih =>
    cases ys with
    | nil =>
      rw [List.nil_append] at h
      rw [← h, ends_of_unbroken hx] at hr'
      cases hr'
    | cons y ys =>
      obtain ⟨rfl, htail⟩ := List.cons.inj h
      simp only [unbroken, Bool.and_eq_true] at hx hy
      obtain ⟨rfl, hrest⟩ := ih hx.2 hy.2 htail
      exact ⟨rfl, hrest⟩

theorem unbroken_of_isWord {cs : List Char} (h : ∀ c ∈ cs, isWord c = true) :
    unbroken cs = true := by
  induction cs with
  | nil => rfl
  | cons c cs ih =>
    rw [unbroken, h c List.mem_cons_self, ih fun d hd => h d (List.mem_cons_of_mem c hd)]
    rfl

theorem takeWhile_append_of_ends (cs : List Char) {r : List Char} (hr : ends r = true) :
    (cs ++ r).takeWhile isWord = cs.takeWhile isWord := by
  induction cs with
  | nil =>
    cases r with
    | nil => rfl
    | cons c r =>
      cases hc : isWord c
      · simp [hc]
      · rw [ends_of_isWord hc] at hr
        cases hr
  | cons c cs ih => simp [List.takeWhile_cons, ih]

end Text

/-! ## Kinds of types -/

/-- What the first characters of a type tell about it. -/
inductive Ty.Kind where
  | name | pointer | slice | array | map | struct | interface | func
  deriving DecidableEq

namespace Text

/-- The kind of a type whose text begins with a word. -/
def kindOfWord (word : List Char) : Ty.Kind :=
  if word = "map".toList then .map
  else if word = "struct".toList then .struct
  else if word = "interface".toList then .interface
  else if word = "func".toList then .func
  else .name

/-- The kind of type that a text begins with. -/
def kindOf : List Char → Ty.Kind
  | '*' :: _ => .pointer
  | '[' :: ']' :: _ => .slice
  | '[' :: _ => .array
  | cs => kindOfWord (cs.takeWhile isWord)

theorem kindOf_of_isWord {c : Char} (h : isWord c = true) (cs : List Char) :
    kindOf (c :: cs) = kindOfWord ((c :: cs).takeWhile isWord) := by
  unfold kindOf
  split
  · rename_i heq
    cases heq
    cases h
  · rename_i heq
    cases heq
    cases h
  · rename_i heq
    cases heq
    cases h
  · rfl

/-- The text is one of a type that is shown by its name alone. -/
structure IsName (cs : List Char) : Prop where
  exists_cons : ∃ c rest, cs = c :: rest ∧ isWord c = true
  unbroken : unbroken cs = true
  word : kindOfWord (cs.takeWhile isWord) = .name

theorem IsName.kindOf_append {cs r : List Char} (h : IsName cs) (hr : ends r = true) :
    kindOf (cs ++ r) = .name := by
  obtain ⟨c, rest, rfl, hc⟩ := h.exists_cons
  rw [List.cons_append, kindOf_of_isWord hc, ← List.cons_append, takeWhile_append_of_ends _ hr,
    h.word]

theorem IsName.not_isPrefix {cs : List Char} (h : IsName cs) {c : Char} (hc : isWord c = false)
    (ds r : List Char) : ¬ (cs ++ ds).IsPrefix (c :: r) := by
  obtain ⟨d, rest, rfl, hd⟩ := h.exists_cons
  rintro ⟨s, hs⟩
  rw [(List.cons.inj hs).1, hc] at hd
  cases hd

end Text

open Text

theorem Predeclared.isName (k : Predeclared) : IsName k.name.toList := by
  refine ⟨?_, ?_, ?_⟩
  · cases k <;> exact ⟨_, _, rfl, rfl⟩
  · cases k <;> decide
  · cases k <;> decide

namespace Identifier

variable {n : String} (h : Identifier n)
include h

theorem isWord_of_mem {c : Char} (hc : c ∈ n.toList) : isWord c = true := by
  rcases h.chars c hc with hc | rfl
  · simp [isWord, hc]
  · rfl

theorem notMem {c : Char} (hc : isWord c = false) : c ∉ n.toList := by
  intro hm
  rw [h.isWord_of_mem hm] at hc
  cases hc

theorem isName : IsName n.toList := by
  refine ⟨?_, unbroken_of_isWord fun c => h.isWord_of_mem, ?_⟩
  · cases hn : n.toList with
    | nil => exact absurd (String.toList_eq_nil_iff.mp hn) h.nonempty
    | cons c cs => exact ⟨c, cs, rfl, h.isWord_of_mem (hn ▸ List.mem_cons_self)⟩
  · have hkey := h.notKeyword
    simp only [List.mem_cons, List.not_mem_nil, or_false, not_or] at hkey
    rw [List.takeWhile_eq_self_iff.mpr fun c => h.isWord_of_mem, kindOfWord]
    simp only [String.toList_inj, hkey, if_false]

end Identifier

end AssertionLint
