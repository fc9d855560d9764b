import AssertionLint.Json.Number
import AssertionLint.Json.StringText

/-!
# Tokens of JSON text

JSON text is read as a list of tokens with blanks between them left out. Where
the text cannot be read any further the list ends in a `broken` token, so that
whoever goes through the tokens meets the first problem of the text in its
place.
-/

namespace AssertionLint.Json

inductive Token where
  | openBrace
  | closeBrace
  | openBracket
  | closeBracket
  | comma
  | colon
  | string (value : String)
  | number (value : Number)
  | bool (value : Bool)
  | null
  /-- The text goes on with something that is no token. -/
  | broken
  deriving DecidableEq, Repr

def isBlank (c : Char) : Bool := c == ' ' || c == '\n' || c == '\t' || c == '\r'

namespace Token

/-- What follows the given word at the start of a text. -/
def behind? : List Char → List Char → Option (List Char)
  | [], cs => some cs
  | _ :: _, [] => none
  | w :: word, c :: cs => if w = c then behind? word cs else none

/-- A token spelled by a word whose first letter has been read. -/
def spelled? (word : String) (token : Token) (cs : List Char) : Option (Token × List Char) :=
  (behind? word.toList cs).map fun rest => (token, rest)

/-- The token that begins with a character, and what follows it. -/
def read? (c : Char) (cs : List Char) : Option (Token × List Char) :=
  match c with
  | '\x7b' => some (openBrace, cs)
  | '\x7d' => some (closeBrace, cs)
  | '[' => some (openBracket, cs)
  | ']' => some (closeBracket, cs)
  | ',' => some (comma, cs)
  | ':' => some (colon, cs)
  | '"' => (stringBody? cs).map fun (s, rest) => (string (String.ofList s), rest)
  | 't' => spelled? "rue" (bool true) cs
  | 'f' => spelled? "alse" (bool false) cs
  | 'n' => spelled? "ull" null cs
  | '-' => (Number.read? true cs).map fun (n, rest) => (number n, rest)
  | c =>
    if c.isDigit then (Number.read? false (c :: cs)).map fun (n, rest) => (number n, rest)
    else none

theorem length_of_behind? {word cs rest : List Char} (h : behind? word cs = some rest) :
    rest.length ≤ cs.length := by
  induction word generalizing cs with
  | nil =>
    simp only [behind?, Option.some.injEq] at h
    exact Nat.le_of_eq (congrArg List.length h.symm)
  | cons w word ih =>
    cases cs with
    | nil => simp [behind?] at h
    | cons c cs =>
      rw [behind?] at h
      split at h
      · exact Nat.le_succ_of_le (ih h)
      · simp at h

theorem length_of_spelled? {word : String} {token t : Token} {cs rest : List Char}
    (h : spelled? word token cs = some (t, rest)) : rest.length ≤ cs.length := by
  simp only [spelled?, Option.map_eq_some_iff, Prod.mk.injEq] at h
  obtain ⟨r, hr, _, rfl⟩ := h
  exact length_of_behind? hr

theorem length_of_read? {c : Char} {t : Token} {cs rest : List Char}
    (h : read? c cs = some (t, rest)) : rest.length ≤ cs.length := by
  have done {u : Token} (h : some (u, cs) = some (t, rest)) : rest.length ≤ cs.length := by
    simp only [Option.some.injEq, Prod.mk.injEq] at h
    exact Nat.le_of_eq (congrArg List.length h.2.symm)
  unfold read? at h
  split at h
  iterate 6 exact done h
  · simp only [Option.map_eq_some_iff, Prod.mk.injEq, Prod.exists] at h
    obtain ⟨s, r, hs, _, rfl⟩ := h
    exact Nat.le_of_lt (length_of_stringBody? hs)
  iterate 3 exact length_of_spelled? h
  · simp only [Option.map_eq_some_iff, Prod.mk.injEq, Prod.exists] at h
    obtain ⟨n, r, hn, _, rfl⟩ := h
    exact Nat.le_of_lt (Number.length_of_read? hn)
  · split at h
    · simp only [Option.map_eq_some_iff, Prod.mk.injEq, Prod.exists] at h
      obtain ⟨n, r, hn, _, rfl⟩ := h
      exact Nat.le_of_lt_succ (Number.length_of_read? hn)
    · simp at h

end Token

/-- The tokens of a text. -/
def tokens (cs : List Char) : List Token :=
  match cs with
  | [] => []
  | c :: cs =>
    if isBlank c then tokens cs
    else
      match _h : Token.read? c cs with
      | some (t, rest) => t :: tokens rest
      | none => [.broken]
termination_by cs.length
decreasing_by
  · simp
  · have := Token.length_of_read? _h
    simp only [List.length_cons]
    omega

theorem tokens_nil : tokens [] = [] := by
  rw [tokens]

theorem tokens_blank {c : Char} (h : isBlank c = true) (cs : List Char) :
    tokens (c :: cs) = tokens cs := by
  rw [tokens]
  simp [h]

theorem tokens_cons {c : Char} {cs rest : List Char} {t : Token} (hb : isBlank c = false)
    (h : Token.read? c cs = some (t, rest)) : tokens (c :: cs) = t :: tokens rest := by
  rw [tokens]
  simp only [hb, Bool.false_eq_true, if_false]
  split
  · simp_all
  · simp_all

end AssertionLint.Json
