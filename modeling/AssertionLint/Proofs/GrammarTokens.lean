import AssertionLint.Json.Grammar
import AssertionLint.Json.Token
import Mathlib.Data.List.Basic
import Mathlib.Tactic

/-!
# The tokens of grammatical text

The tokens of a text begin with those of its first part, and the first token of a
value tells its kind. A number is the one part that need not have a token: if it is
too large for a double the tokens break off there. So nothing is said about what
stands behind a number, nor about the inside of an object; a reader that wants
neither in a place does not look further.
-/

namespace AssertionLint.Json

/-! ## Parts of values -/

theorem tokens_of_blanks {cs rest : List Char} (h : Blanks cs rest) : tokens cs = tokens rest := by
  induction h with
  | none => rfl
  | more hc _ ih =>
    rw [tokens_blank _, ih]
    rcases hc with rfl | rfl | rfl | rfl <;> decide

theorem hexDigit?_digitChar {n : ℕ} (h : n < 16) : hexDigit? (Nat.digitChar n) = some n := by
  interval_cases n <;> decide

theorem hexDigit?_of_isHexDigit {n : ℕ} {c : Char} (h : IsHexDigit n c) :
    hexDigit? c = some n := by
  obtain ⟨hn, rfl | rfl⟩ := h
  · exact hexDigit?_digitChar hn
  · interval_cases n <;> decide

theorem hex4?_of_hex4 {n : ℕ} {cs rest : List Char} (h : Hex4 n cs rest) :
    hex4? cs = some (n, rest) := by
  cases h with
  | digits ha hb hc hd =>
    simp [hex4?, hexDigit?_of_isHexDigit ha, hexDigit?_of_isHexDigit hb,
      hexDigit?_of_isHexDigit hc, hexDigit?_of_isHexDigit hd]

theorem escaped?_number (cs : List Char) : escaped? ('u' :: cs) = numbered? cs := by
  simp [escaped?]

theorem numbered?_of_hex4 {c : Char} {cs rest : List Char} (h : Hex4 c.toNat cs rest) :
    numbered? cs = some (c, rest) := by
  have hvalid : c.toNat < 0xD800 ∨ 0xDFFF < c.toNat ∧ c.toNat < 0x110000 := c.valid
  have hlow : isLowSurrogate c.toNat = false := by
    simp only [isLowSurrogate, Bool.and_eq_false_iff, decide_eq_false_iff_not]
    omega
  have hhigh : isHighSurrogate c.toNat = false := by
    simp only [isHighSurrogate, Bool.and_eq_false_iff, decide_eq_false_iff_not]
    omega
  simp [numbered?, hex4?_of_hex4 h, hlow, hhigh]

theorem surrogates_bounds {c : Char} (hc : 0x10000 ≤ c.toNat) :
    (0xD800 ≤ (surrogates c).1 ∧ (surrogates c).1 ≤ 0xDBFF) ∧
      0xDC00 ≤ (surrogates c).2 ∧ (surrogates c).2 ≤ 0xDFFF := by
  have hvalid : c.toNat < 0xD800 ∨ 0xDFFF < c.toNat ∧ c.toNat < 0x110000 := c.valid
  simp only [surrogates]
  omega

theorem joinSurrogates_surrogates {c : Char} (hc : 0x10000 ≤ c.toNat) :
    joinSurrogates (surrogates c).1 (surrogates c).2 = c := by
  have hn : 0x10000 + ((surrogates c).1 - 0xD800) * 0x400 + ((surrogates c).2 - 0xDC00) =
      c.toNat := by
    simp only [surrogates]
    omega
  rw [joinSurrogates, hn, Char.ofNat_toNat]

theorem numbered?_of_surrogates {c : Char} {cs cs' rest : List Char} (hc : 0x10000 ≤ c.toNat)
    (h : Hex4 (surrogates c).1 cs ('\\' :: 'u' :: cs')) (h' : Hex4 (surrogates c).2 cs' rest) :
    numbered? cs = some (c, rest) := by
  have hbounds := surrogates_bounds hc
  have hnotLow : isLowSurrogate (surrogates c).1 = false := by
    simp only [isLowSurrogate, Bool.and_eq_false_iff, decide_eq_false_iff_not]
    omega
  have hhigh : isHighSurrogate (surrogates c).1 = true := by
    simp only [isHighSurrogate, Bool.and_eq_true, decide_eq_true_eq]
    omega
  have hlow : isLowSurrogate (surrogates c).2 = true := by
    simp only [isLowSurrogate, Bool.and_eq_true, decide_eq_true_eq]
    omega
  simp [numbered?, hex4?_of_hex4 h, hex4?_of_hex4 h', hnotLow, hhigh, hlow,
    joinSurrogates_surrogates hc]

theorem escaped?_of_shortForm {letter c : Char} (h : (letter, c) ∈ shortForms)
    (rest : List Char) : escaped? (letter :: rest) = some (c, rest) := by
  simp only [shortForms, List.mem_cons, Prod.mk.injEq, List.not_mem_nil, or_false] at h
  rcases h with ⟨rfl, rfl⟩ | ⟨rfl, rfl⟩ | ⟨rfl, rfl⟩ | ⟨rfl, rfl⟩ | ⟨rfl, rfl⟩ | ⟨rfl, rfl⟩ |
    ⟨rfl, rfl⟩ | ⟨rfl, rfl⟩ <;> rfl

theorem stringBody?_of_charText {c : Char} {cs more : List Char} (h : CharText c cs more) :
    stringBody? cs = (stringBody? more).map fun (s, rest) => (c :: s, rest) := by
  cases h with
  | plain hcontrol hquote hslash => exact stringBody?_plain hquote hslash (by omega) _
  | short hform => exact stringBody?_escape (escaped?_of_shortForm hform _)
  | number hhex => exact stringBody?_escape ((escaped?_number _).trans (numbered?_of_hex4 hhex))
  | pair hc hhigh hlow =>
    exact stringBody?_escape ((escaped?_number _).trans (numbered?_of_surrogates hc hhigh hlow))

theorem stringBody?_of_stringText {s cs rest : List Char} (h : StringText s cs rest) :
    stringBody? cs = some (s, rest) := by
  induction h with
  | close => exact stringBody?_quote _
  | char hc _ ih =>
    rw [stringBody?_of_charText hc, ih]
    rfl

theorem tokens_of_stringText {s cs rest : List Char} (h : StringText s cs rest) :
    tokens ('"' :: cs) = .string (String.ofList s) :: tokens rest := by
  apply tokens_cons (by decide)
  simp [Token.read?, stringBody?_of_stringText h]

theorem tokens_null (rest : List Char) :
    tokens ("null".toList ++ rest) = .null :: tokens rest :=
  tokens_cons (by decide) rfl

theorem tokens_bool (b : Bool) (rest : List Char) :
    tokens ((toString b).toList ++ rest) = .bool b :: tokens rest := by
  cases b
  · exact tokens_cons (by decide) rfl
  · exact tokens_cons (by decide) rfl

theorem tokens_of_keyText {key : String} {cs rest : List Char} (h : KeyText key cs rest) :
    tokens cs = .string key :: .colon :: tokens rest := by
  obtain ⟨hbefore, hname, hcolon, hbehind⟩ := h
  rw [tokens_of_blanks hbefore, tokens_of_stringText hname, tokens_of_blanks hcolon,
    tokens_cons (by decide) rfl, tokens_of_blanks hbehind]

/-! A number begins with a sign or a digit, and this alone decides what kind of token
it has, if it has one. -/

theorem NumberText.exists_cons {cs : List Char} (h : NumberText cs) :
    ∃ c ds, cs = c :: ds ∧ (c = '-' ∨ c.isDigit = true) := by
  obtain ⟨hsign, ⟨⟨hne, hdigits⟩, -⟩, -, -⟩ := h
  rename_i sign whole fraction exponent
  obtain ⟨d, ds, rfl⟩ := List.exists_cons_of_ne_nil hne
  rcases hsign with rfl | rfl
  · exact ⟨d, ds ++ fraction ++ exponent, by simp, .inr (hdigits d List.mem_cons_self)⟩
  · exact ⟨'-', d :: ds ++ fraction ++ exponent, by simp, .inl rfl⟩

theorem read?_of_isDigit {c : Char} (h : c.isDigit = true) (cs : List Char) :
    Token.read? c cs =
      (Number.read? false (c :: cs)).map fun (n, rest) => (Token.number n, rest) := by
  unfold Token.read?
  split
  iterate 11 exact absurd h (by decide)
  rw [if_pos h]

theorem isBlank_of_isDigit {c : Char} (h : c.isDigit = true) : isBlank c = false := by
  rw [Bool.eq_false_iff]
  intro hblank
  simp only [isBlank, Bool.or_eq_true, beq_iff_eq, or_assoc] at hblank
  rcases hblank with rfl | rfl | rfl | rfl <;> exact absurd h (by decide)

theorem tokens_broken {c : Char} {cs : List Char} (hb : isBlank c = false)
    (h : Token.read? c cs = none) : tokens (c :: cs) = [.broken] := by
  rw [tokens]
  simp only [hb, Bool.false_eq_true, if_false]
  split
  · simp_all
  · rfl

theorem tokens_of_numberText {cs : List Char} (h : NumberText cs) (rest : List Char) :
    tokens (cs ++ rest) = [.broken] ∨ ∃ n ts, tokens (cs ++ rest) = .number n :: ts := by
  obtain ⟨c, ds, rfl, hc⟩ := h.exists_cons
  have hblank : isBlank c = false := by
    rcases hc with rfl | hc
    · decide
    · exact isBlank_of_isDigit hc
  have hread : ∃ sign ds', Token.read? c (ds ++ rest) =
      (Number.read? sign ds').map fun (n, rest) => (Token.number n, rest) := by
    rcases hc with rfl | hc
    · exact ⟨true, ds ++ rest, rfl⟩
    · exact ⟨false, c :: (ds ++ rest), read?_of_isDigit hc _⟩
  obtain ⟨sign, ds', hread⟩ := hread
  cases hn : Number.read? sign ds' with
  | none =>
    rw [hn] at hread
    exact .inl (tokens_broken hblank hread)
  | some r =>
    rw [hn] at hread
    exact .inr ⟨r.1, tokens r.2, tokens_cons hblank hread⟩

/-! ## Values -/

mutual

/-- The tokens of a value and those behind it. -/
inductive ValueTokens : Value → List Token → List Token → Prop
  | null {rest : List Token} : ValueTokens .null (.null :: rest) rest
  | bool {b : Bool} {rest : List Token} : ValueTokens (.bool b) (.bool b :: rest) rest
  | number {cs : List Char} {n : Number} {ts rest : List Token} :
      ValueTokens (.number cs) (.number n :: ts) rest
  | broken {cs : List Char} {rest : List Token} : ValueTokens (.number cs) [.broken] rest
  | string {s : String} {rest : List Token} : ValueTokens (.string s) (.string s :: rest) rest
  | emptyArray {rest : List Token} :
      ValueTokens (.array []) (.openBracket :: .closeBracket :: rest) rest
  | array {vs : List Value} {ts rest : List Token} :
      ElementTokens vs ts rest → ValueTokens (.array vs) (.openBracket :: ts) rest
  | object {ms : List (String × Value)} {ts rest : List Token} :
      ValueTokens (.object ms) (.openBrace :: ts) rest

/-- The tokens of at least one element, up to the closing bracket. -/
inductive ElementTokens : List Value → List Token → List Token → Prop
  | last {v : Value} {ts rest : List Token} :
      ValueTokens v ts (.closeBracket :: rest) → ElementTokens [v] ts rest
  | more {v : Value} {vs : List Value} {ts others rest : List Token} :
      ValueTokens v ts (.comma :: others) → ElementTokens vs others rest →
      ElementTokens (v :: vs) ts rest

end

theorem ElementTokens.first {vs : List Value} {ts rest : List Token}
    (h : ElementTokens vs ts rest) :
    ∃ v behind, vs.head? = some v ∧ ValueTokens v ts behind := by
  cases h with
  | last hvalue => exact ⟨_, _, rfl, hvalue⟩
  | more hvalue _ => exact ⟨_, _, rfl, hvalue⟩

/-- The tokens of at least one member, up to the closing brace. -/
inductive MemberTokens : List (String × Value) → List Token → List Token → Prop
  | last {key : String} {v : Value} {ts rest : List Token} :
      ValueTokens v ts (.closeBrace :: rest) →
      MemberTokens [(key, v)] (.string key :: .colon :: ts) rest
  | more {key : String} {v : Value} {ms : List (String × Value)} {ts others rest : List Token} :
      ValueTokens v ts (.comma :: others) → MemberTokens ms others rest →
      MemberTokens ((key, v) :: ms) (.string key :: .colon :: ts) rest

mutual

theorem valueTokens_of_valueText {v : Value} {cs rest : List Char} :
    ValueText v cs rest → ValueTokens v (tokens cs) (tokens rest)
  | .null => by
    rw [tokens_null]
    exact .null
  | .bool => by
    rw [tokens_bool]
    exact .bool
  | .number h => by
    rcases tokens_of_numberText h rest with ht | ⟨n, ts, ht⟩
    · rw [ht]
      exact .broken
    · rw [ht]
      exact .number
  | .string h => by
    rw [tokens_of_stringText h]
    exact .string
  | .emptyArray h => by
    rw [tokens_cons (by decide) rfl, tokens_of_blanks h, tokens_cons (by decide) rfl]
    exact .emptyArray
  | .array h => by
    rw [tokens_cons (by decide) rfl]
    exact .array (elementTokens_of_elementsText h)
  | .emptyObject _ => by
    rw [tokens_cons (by decide) rfl]
    exact .object
  | .object _ => by
    rw [tokens_cons (by decide) rfl]
    exact .object

theorem elementTokens_of_elementsText {vs : List Value} {cs rest : List Char} :
    ElementsText vs cs rest → ElementTokens vs (tokens cs) (tokens rest)
  | .last hbefore hv hbehind => by
    have hvalue := valueTokens_of_valueText hv
    rw [tokens_of_blanks hbehind, tokens_cons (by decide) rfl] at hvalue
    rw [tokens_of_blanks hbefore]
    exact .last hvalue
  | .more hbefore hv hbehind hvs => by
    have hvalue := valueTokens_of_valueText hv
    rw [tokens_of_blanks hbehind, tokens_cons (by decide) rfl] at hvalue
    rw [tokens_of_blanks hbefore]
    exact .more hvalue (elementTokens_of_elementsText hvs)

end

theorem memberTokens_of_membersText {ms : List (String × Value)} {cs rest : List Char} :
    MembersText ms cs rest → MemberTokens ms (tokens cs) (tokens rest)
  | .last hkey hv hbehind => by
    have hvalue := valueTokens_of_valueText hv
    rw [tokens_of_blanks hbehind, tokens_cons (by decide) rfl] at hvalue
    rw [tokens_of_keyText hkey]
    exact .last hvalue
  | .more hkey hv hbehind hms => by
    have hvalue := valueTokens_of_valueText hv
    rw [tokens_of_blanks hbehind, tokens_cons (by decide) rfl] at hvalue
    rw [tokens_of_keyText hkey]
    exact .more hvalue (memberTokens_of_membersText hms)

/-- The tokens of a text that is an object. -/
theorem tokens_of_object {ms : List (String × Value)} {text : String}
    (h : Document (.object ms) text) :
    ∃ ts, tokens text.toList = .openBrace :: ts ∧
      (ms = [] ∧ ts = [.closeBrace] ∨ MemberTokens ms ts []) := by
  obtain ⟨start, behind, hbefore, hv, hbehind⟩ := h
  have hend : tokens behind = [] := (tokens_of_blanks hbehind).trans tokens_nil
  rw [tokens_of_blanks hbefore]
  cases hv with
  | emptyObject hblank =>
    refine ⟨[.closeBrace], ?_, .inl ⟨rfl, rfl⟩⟩
    rw [tokens_cons (by decide) rfl, tokens_of_blanks hblank, tokens_cons (by decide) rfl, hend]
  | object hms =>
    refine ⟨_, tokens_cons (by decide) rfl, .inr ?_⟩
    rw [← hend]
    exact memberTokens_of_membersText hms

end AssertionLint.Json
