/-!
# Strings in JSON text

Writing puts a text between double quotes and escapes quotes, backslashes and
control characters. Reading undoes this and accepts the other spellings JSON has
for a character: an escaped slash, a number of four hexadecimal digits, and two
such numbers for a character beyond the first plane. A control character that
stands for itself and half of a surrogate pair are malformed.
-/

namespace AssertionLint.Json

/-! ## Writing -/

/-- One character inside a string. -/
def escapeChar (c : Char) : List Char :=
  match c with
  | '"' => ['\\', '"']
  | '\\' => ['\\', '\\']
  | '\x08' => ['\\', 'b']
  | '\x0c' => ['\\', 'f']
  | '\n' => ['\\', 'n']
  | '\r' => ['\\', 'r']
  | '\t' => ['\\', 't']
  | c =>
    if c.toNat < 0x20 then
      ['\\', 'u', '0', '0', Nat.digitChar (c.toNat / 16), Nat.digitChar (c.toNat % 16)]
    else [c]

/-- A text as a JSON string. -/
def quote (s : String) : String :=
  String.ofList ('"' :: s.toList.flatMap escapeChar ++ ['"'])

/-! ## Reading -/

def hexDigit? (c : Char) : Option Nat :=
  if '0' ≤ c ∧ c ≤ '9' then some (c.toNat - '0'.toNat)
  else if 'a' ≤ c ∧ c ≤ 'f' then some (c.toNat - 'a'.toNat + 10)
  else if 'A' ≤ c ∧ c ≤ 'F' then some (c.toNat - 'A'.toNat + 10)
  else none

/-- The number that four hexadecimal digits stand for. -/
def hex4? : List Char → Option (Nat × List Char)
  | a :: b :: c :: d :: rest => do
    let a ← hexDigit? a
    let b ← hexDigit? b
    let c ← hexDigit? c
    let d ← hexDigit? d
    pure (((a * 16 + b) * 16 + c) * 16 + d, rest)
  | _ => none

def isHighSurrogate (n : Nat) : Bool := 0xD800 ≤ n && n ≤ 0xDBFF

def isLowSurrogate (n : Nat) : Bool := 0xDC00 ≤ n && n ≤ 0xDFFF

/-- The character that a surrogate pair stands for. -/
def joinSurrogates (high low : Nat) : Char :=
  Char.ofNat (0x10000 + (high - 0xD800) * 0x400 + (low - 0xDC00))

/-- A character given by number, behind the backslash and the letter `u`. -/
def numbered? (cs : List Char) : Option (Char × List Char) :=
  match hex4? cs with
  | none => none
  | some (n, rest) =>
    if isLowSurrogate n then none
    else if isHighSurrogate n then
      match rest with
      | '\\' :: 'u' :: more =>
        match hex4? more with
        | none => none
        | some (m, rest) => if isLowSurrogate m then some (joinSurrogates n m, rest) else none
      | _ => none
    else some (Char.ofNat n, rest)

/-- The character that a backslash with one letter stands for. -/
def shortForm? : Char → Option Char
  | '"' => some '"'
  | '\\' => some '\\'
  | '/' => some '/'
  | 'b' => some '\x08'
  | 'f' => some '\x0c'
  | 'n' => some '\n'
  | 'r' => some '\r'
  | 't' => some '\t'
  | _ => none

/-- An escaped character, behind the backslash. -/
def escaped? : List Char → Option (Char × List Char)
  | [] => none
  | c :: cs => if c = 'u' then numbered? cs else (shortForm? c).map fun d => (d, cs)

theorem length_of_hex4? {cs rest : List Char} {n : Nat} (h : hex4? cs = some (n, rest)) :
    rest.length < cs.length := by
  unfold hex4? at h
  split at h
  · simp only [Option.bind_eq_bind, Option.bind_eq_some_iff, Option.pure_def, Option.some.injEq,
      Prod.mk.injEq] at h
    obtain ⟨_, _, _, _, _, _, _, _, _, rfl⟩ := h
    simp only [List.length_cons]
    omega
  · simp at h

theorem length_of_numbered? {cs rest : List Char} {c : Char}
    (h : numbered? cs = some (c, rest)) : rest.length < cs.length := by
  unfold numbered? at h
  split at h
  · simp at h
  · rename_i n r hn
    have h₁ := length_of_hex4? hn
    split at h
    · simp at h
    · split at h
      · split at h
        · split at h
          · simp at h
          · rename_i hm
            have h₂ := length_of_hex4? hm
            split at h
            · simp only [Option.some.injEq, Prod.mk.injEq] at h
              obtain ⟨_, rfl⟩ := h
              simp only [List.length_cons] at h₁
              omega
            · simp at h
        · simp at h
      · simp only [Option.some.injEq, Prod.mk.injEq] at h
        obtain ⟨_, rfl⟩ := h
        exact h₁

theorem length_of_escaped? {cs rest : List Char} {c : Char}
    (h : escaped? cs = some (c, rest)) : rest.length < cs.length := by
  unfold escaped? at h
  split at h
  · simp at h
  · split at h
    · have h₁ := length_of_numbered? h
      simp only [List.length_cons]
      omega
    · simp only [Option.map_eq_some_iff, Prod.mk.injEq] at h
      obtain ⟨_, _, _, rfl⟩ := h
      simp

/-- Reads up to the closing quote. Returns the characters of the string and what
follows the quote. -/
def stringBody? (cs : List Char) : Option (List Char × List Char) :=
  match cs with
  | [] => none
  | c :: cs =>
    if c = '"' then some ([], cs)
    else if c = '\\' then
      match _h : escaped? cs with
      | none => none
      | some (d, rest) => (stringBody? rest).map fun (s, more) => (d :: s, more)
    else if c.toNat < 0x20 then none
    else (stringBody? cs).map fun (s, more) => (c :: s, more)
termination_by cs.length
decreasing_by
  · have := length_of_escaped? _h
    simp only [List.length_cons]
    omega
  · simp

theorem stringBody?_quote (cs : List Char) : stringBody? ('"' :: cs) = some ([], cs) := by
  rw [stringBody?]
  simp

theorem stringBody?_escape {cs rest : List Char} {d : Char} (h : escaped? cs = some (d, rest)) :
    stringBody? ('\\' :: cs) = (stringBody? rest).map fun (s, more) => (d :: s, more) := by
  rw [stringBody?]
  simp only [Char.reduceEq, if_false, if_true]
  split
  · simp_all
  · simp_all

theorem stringBody?_plain {c : Char} (hq : c ≠ '"') (hb : c ≠ '\\') (hc : ¬c.toNat < 0x20)
    (cs : List Char) :
    stringBody? (c :: cs) = (stringBody? cs).map fun (s, more) => (c :: s, more) := by
  rw [stringBody?]
  simp [hq, hb, hc]

theorem length_of_stringBody? {cs s rest : List Char} (h : stringBody? cs = some (s, rest)) :
    rest.length < cs.length := by
  fun_induction stringBody? cs generalizing s with
  | case1 => simp at h
  | case2 cs =>
    simp only [Option.some.injEq, Prod.mk.injEq] at h
    obtain ⟨_, rfl⟩ := h
    simp
  | case3 => simp at h
  | case4 cs d r hr _ ih =>
    simp only [Option.map_eq_some_iff, Prod.mk.injEq, Prod.exists] at h
    obtain ⟨t, more, ht, _, rfl⟩ := h
    have h₁ := ih ht
    have h₂ := length_of_escaped? hr
    simp only [List.length_cons]
    omega
  | case5 => simp at h
  | case6 c cs _ _ _ ih =>
    simp only [Option.map_eq_some_iff, Prod.mk.injEq, Prod.exists] at h
    obtain ⟨t, more, ht, _, rfl⟩ := h
    have h₁ := ih ht
    simp only [List.length_cons]
    omega

end AssertionLint.Json
