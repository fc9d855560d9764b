import AssertionLint.Json.Grammar
import Mathlib.Data.List.Basic
import Mathlib.Tactic

/-!
# Texts without blanks

A text spells a value if it is a written form of it whatever stands behind. This goes
through the signs of JSON: what strings, arrays and objects are put together from spells
them. A string is spelled by any way to write single characters.
-/

namespace AssertionLint.Json

/-- Whatever follows the text, it is a written form of the value. -/
def Spells (text : String) (v : Value) : Prop :=
  ∀ rest, ValueText v (text.toList ++ rest) rest

theorem Spells.document {text : String} {v : Value} (h : Spells text v) : Document v text :=
  ⟨text.toList, [], .none, by simpa using h [], .none⟩

theorem spells_bool (b : Bool) : Spells (if b then "true" else "false") (.bool b) := by
  intro rest
  cases b
  · exact .bool
  · exact .bool

/-! ## Strings -/

/-- Two zeros and two digits are the number of any character below `0x100`. -/
theorem hex4_low {n : ℕ} (h : n < 0x100) (rest : List Char) :
    Hex4 n ('0' :: '0' :: Nat.digitChar (n / 16) :: Nat.digitChar (n % 16) :: rest) rest := by
  have hn : ((0 * 16 + 0) * 16 + n / 16) * 16 + n % 16 = n := by omega
  have hzero : IsHexDigit 0 '0' := by decide
  have hhigh : IsHexDigit (n / 16) (Nat.digitChar (n / 16)) := ⟨by omega, .inl rfl⟩
  have hlow : IsHexDigit (n % 16) (Nat.digitChar (n % 16)) := ⟨by omega, .inl rfl⟩
  have hdigits := @Hex4.digits _ _ _ _ _ _ _ _ rest hzero hzero hhigh hlow
  rwa [hn] at hdigits

section Strings

variable {escape : Char → List Char} (h : ∀ c rest, CharText c (escape c ++ rest) rest)

include h

theorem stringText_flatMap (s rest : List Char) :
    StringText s (s.flatMap escape ++ '"' :: rest) rest := by
  induction s with
  | nil => exact .close
  | cons c s ih =>
    rw [List.flatMap_cons, List.append_assoc]
    exact .char (h c _) ih

theorem spells_string (s : String) :
    Spells ("\"" ++ String.ofList (s.toList.flatMap escape) ++ "\"") (.string s) := by
  intro rest
  have hstring := ValueText.string (stringText_flatMap h s.toList rest)
  simpa using hstring

theorem keyText_string (s : String) (rest : List Char) :
    KeyText s (("\"" ++ String.ofList (s.toList.flatMap escape) ++ "\"" ++ ":").toList ++ rest)
      rest := by
  have hkey : KeyText (String.ofList s.toList)
      ('"' :: (s.toList.flatMap escape ++ '"' :: ':' :: rest)) rest :=
    .name .none (stringText_flatMap h s.toList (':' :: rest)) .none .none
  simpa using hkey

end Strings

/-! ## Arrays and objects -/

section Lists

variable {α : Type} {text : α → String} {value : α → Value}

theorem elementsText_intercalate (h : ∀ a, Spells (text a) (value a)) (a : α) (as : List α)
    (rest : List Char) :
    ElementsText ((a :: as).map value)
      ((String.intercalate "," ((a :: as).map text)).toList ++ ']' :: rest) rest := by
  induction as generalizing a with
  | nil => simpa using ElementsText.last .none (h a (']' :: rest)) .none
  | cons b as ih =>
    have hmore := ElementsText.more .none (h a _) .none (ih b)
    simpa using hmore

theorem spells_array (h : ∀ a, Spells (text a) (value a)) (as : List α) :
    Spells ("[" ++ String.intercalate "," (as.map text) ++ "]") (.array (as.map value)) := by
  intro rest
  cases as with
  | nil => simpa using ValueText.emptyArray (@Blanks.none (']' :: rest))
  | cons a as => simpa using ValueText.array (elementsText_intercalate h a as rest)

variable {key : α → String} {keyText : α → String}

theorem membersText_intercalate
    (hkey : ∀ a rest, KeyText (key a) ((keyText a).toList ++ rest) rest)
    (h : ∀ a, Spells (text a) (value a)) (a : α) (as : List α) (rest : List Char) :
    MembersText ((a :: as).map fun a => (key a, value a))
      ((String.intercalate "," ((a :: as).map fun a => keyText a ++ text a)).toList ++
        '\x7d' :: rest) rest := by
  induction as generalizing a with
  | nil => simpa using MembersText.last (hkey a _) (h a ('\x7d' :: rest)) .none
  | cons b as ih =>
    have hmore := MembersText.more (hkey a _) (h a _) .none (ih b)
    simpa using hmore

theorem spells_object
    (hkey : ∀ a rest, KeyText (key a) ((keyText a).toList ++ rest) rest)
    (h : ∀ a, Spells (text a) (value a)) (as : List α) :
    Spells ("\x7b" ++ String.intercalate "," (as.map fun a => keyText a ++ text a) ++ "\x7d")
      (.object (as.map fun a => (key a, value a))) := by
  intro rest
  cases as with
  | nil => simpa using ValueText.emptyObject (@Blanks.none ('\x7d' :: rest))
  | cons a as => simpa using ValueText.object (membersText_intercalate hkey h a as rest)

end Lists

end AssertionLint.Json
