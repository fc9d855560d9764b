import AssertionLint.Proofs.GrammarTokens
import AssertionLint.Selection.Codec
import AssertionLint.Selection.Reader

/-!
# A library that selections can rely on

The reader and the writer of selections are such a library. The reader goes through the
members of an object from left to right; what it has read is a draft that takes in one
member after the other, or stops at one that does not fit.
-/

namespace AssertionLint.Json.Value

def bool? : Value → Option Bool
  | bool b => some b
  | _ => none

def string? : Value → Option String
  | string s => some s
  | _ => none

def strings? : Value → Option (List String)
  | array vs => vs.mapM string?
  | _ => none

theorem bool?_eq_some (v : Value) (b : Bool) : v.bool? = some b ↔ v = .bool b := by
  cases v <;> simp [bool?]

theorem string?_eq_some (v : Value) (s : String) : v.string? = some s ↔ v = .string s := by
  cases v <;> simp [string?]

theorem mapM_string?_eq_some {vs : List Value} {ss : List String} :
    vs.mapM string? = some ss ↔ vs = ss.map .string := by
  induction vs generalizing ss with
  | nil => cases ss <;> simp
  | cons v vs ih =>
    cases ss <;> simp [List.mapM_cons, Option.bind_eq_some_iff, string?_eq_some, ih]

/-- Values are read as strings one by one only if they are these strings. -/
theorem map_eq_map_some {read : Value → Option String}
    (h : ∀ v s, read v = some s ↔ v = .string s) {vs : List Value} {ss : List String} :
    vs.map read = ss.map some ↔ vs = ss.map .string := by
  induction vs generalizing ss with
  | nil => cases ss <;> simp
  | cons v vs ih => cases ss <;> simp [h, ih]

theorem strings?_eq_some (v : Value) (ss : List String) :
    v.strings? = some ss ↔ v = .array (ss.map .string) := by
  cases v with
  | array vs => rw [strings?, mapM_string?_eq_some, array.injEq]
  | _ => simp [strings?]

end AssertionLint.Json.Value

namespace AssertionLint.Selection

open Json (Token Value ValueTokens ElementTokens MemberTokens)

/-! ## Reading values -/

section Values

variable {v : Value} {us rest ts : List Token}

theorem readBool_of_valueTokens (h : ValueTokens v us rest) {b : Bool} :
    readBool us = .ok (b, ts) ↔ v.bool? = some b ∧ ts = rest := by
  cases h <;> simp [readBool, Value.bool?, eq_comm]

theorem readItems_of_not_string (h : ValueTokens v us rest) (hv : ∀ s, v ≠ .string s)
    (r : List String × List Token) : readItems us ≠ .ok r := by
  cases h with
  | string => exact absurd rfl (hv _)
  | _ => simp [readItems]

theorem readItems_comma {s : String} {ss : List String} :
    readItems (.string s :: .comma :: us) = .ok (ss, ts) ↔
      ∃ ss', (readItems us = .ok (ss', ts)) ∧ s :: ss' = ss := by
  rw [readItems]
  split <;> simp_all [and_comm]

theorem readItems_of_elementTokens {vs : List Value} (h : ElementTokens vs us rest)
    {ss : List String} :
    readItems us = .ok (ss, ts) ↔ vs = ss.map .string ∧ ts = rest := by
  induction vs generalizing us ss with
  | nil => cases h
  | cons v vs ih =>
    by_cases hv : ∃ s, v = .string s
    · obtain ⟨s, rfl⟩ := hv
      cases h with
      | last hvalue =>
        cases hvalue
        simp [readItems, List.map_eq_cons_iff, eq_comm]
      | more hvalue hvs =>
        cases hvalue
        simp only [readItems_comma, ih hvs]
        constructor
        · rintro ⟨ss', ⟨rfl, rfl⟩, rfl⟩
          exact ⟨rfl, rfl⟩
        · rintro ⟨hss, rfl⟩
          obtain ⟨s', ss', rfl, hs, hss'⟩ := List.map_eq_cons_iff.mp hss.symm
          cases hs
          exact ⟨ss', ⟨hss'.symm, rfl⟩, rfl⟩
    · -- The reader stops here, whatever stands behind the value.
      obtain ⟨_, behind, hhead, hvalue⟩ := h.first
      cases hhead
      apply iff_of_false
      · exact readItems_of_not_string hvalue (not_exists.mp hv) _
      · rintro ⟨hss, -⟩
        obtain ⟨s, -, -, hs, -⟩ := List.map_eq_cons_iff.mp hss.symm
        exact hv ⟨s, hs.symm⟩

theorem readStrings_openBracket {vs : List Value} (h : ElementTokens vs us rest) :
    readStrings (.openBracket :: us) = readItems us := by
  have hfirst : ∀ us', us ≠ .closeBracket :: us' := by
    rintro us' rfl
    obtain ⟨_, _, -, hvalue⟩ := h.first
    cases hvalue
  rw [readStrings]
  exact fun us' => hfirst us'

theorem readStrings_of_valueTokens (h : ValueTokens v us rest) {ss : List String} :
    readStrings us = .ok (ss, ts) ↔ v.strings? = some ss ∧ ts = rest := by
  rw [v.strings?_eq_some]
  cases h with
  | emptyArray => simp [readStrings, eq_comm]
  | array hvs =>
    rw [readStrings_openBracket hvs, readItems_of_elementTokens hvs]
    simp
  | _ => simp [readStrings]

/-- The draft with a field read from a value. -/
def Draft.store? (d : Draft) (v : Value) : Field → Option Draft
  | .enableAll => v.bool?.map fun b => { d with enableAll := some b }
  | .disableAll => v.bool?.map fun b => { d with disableAll := some b }
  | .enable => v.strings?.map fun names => { d with enable := some names }
  | .disable => v.strings?.map fun names => { d with disable := some names }

/-- Reading a field hands on what the reader of its values gives. -/
theorem readField_eq (d : Draft) (f : Field) (us : List Token) :
    readField d f us = match f with
      | .enableAll => (readBool us).map fun r => ({ d with enableAll := some r.1 }, r.2)
      | .disableAll => (readBool us).map fun r => ({ d with disableAll := some r.1 }, r.2)
      | .enable => (readStrings us).map fun r => ({ d with enable := some r.1 }, r.2)
      | .disable => (readStrings us).map fun r => ({ d with disable := some r.1 }, r.2) := by
  cases f with
  | enableAll | disableAll =>
    simp only [readField]
    cases readBool us <;> rfl
  | enable | disable =>
    simp only [readField]
    cases readStrings us <;> rfl

theorem map_eq_ok {α β ε : Type} {r : Except ε α} {g : α → β} {b : β} :
    r.map g = .ok b ↔ ∃ a, r = .ok a ∧ g a = b := by
  cases r <;> simp [Except.map]

/-- A reading that takes its value from `o` and stops at `rest` still does so if the value
is put into a draft. -/
theorem map_put_eq_ok {α : Type} {r : Reading α} {o : Option α}
    (h : ∀ a ts, r = .ok (a, ts) ↔ o = some a ∧ ts = rest) (put : α → Draft) {d' : Draft} :
    (r.map fun p => (put p.1, p.2)) = .ok (d', ts) ↔ o.map put = some d' ∧ ts = rest := by
  simp only [map_eq_ok, Prod.exists, Prod.mk.injEq, h, Option.map_eq_some_iff]
  constructor
  · rintro ⟨a, _, ⟨ha, rfl⟩, rfl, rfl⟩
    exact ⟨⟨a, ha, rfl⟩, rfl⟩
  · rintro ⟨⟨a, ha, rfl⟩, rfl⟩
    exact ⟨a, _, ⟨ha, rfl⟩, rfl, rfl⟩

theorem readField_of_valueTokens (h : ValueTokens v us rest) {d d' : Draft} {f : Field} :
    readField d f us = .ok (d', ts) ↔ d.store? v f = some d' ∧ ts = rest := by
  rw [readField_eq]
  have hbool : ∀ b ts, readBool us = .ok (b, ts) ↔ v.bool? = some b ∧ ts = rest :=
    fun _ _ => readBool_of_valueTokens h
  have hstrings : ∀ ss ts, readStrings us = .ok (ss, ts) ↔ v.strings? = some ss ∧ ts = rest :=
    fun _ _ => readStrings_of_valueTokens h
  cases f with
  | enableAll => exact map_put_eq_ok hbool fun b => { d with enableAll := some b }
  | disableAll => exact map_put_eq_ok hbool fun b => { d with disableAll := some b }
  | enable => exact map_put_eq_ok hstrings fun names => { d with enable := some names }
  | disable => exact map_put_eq_ok hstrings fun names => { d with disable := some names }

end Values

/-! ## Drafts and members -/

namespace Draft

/-- The draft with a member taken in, if it fits. -/
def take? (d : Draft) (m : String × Value) : Option Draft :=
  match judgeKey d m.1 with
  | .ok f => d.store? m.2 f
  | .error _ => none

theorem has_store? {d d' : Draft} {v : Value} {f : Field} (h : d.store? v f = some d')
    (g : Field) : d'.has g = (d.has g || f == g) := by
  cases f <;> obtain ⟨_, -, rfl⟩ := Option.map_eq_some_iff.mp h <;> cases g <;> simp [has]

end Draft

theorem judgeKey_eq_ok {d : Draft} {key : String} {f : Field} :
    judgeKey d key = .ok f ↔ key = f.key ∧ d.has f = false := by
  constructor
  · intro h
    unfold judgeKey at h
    split at h
    · simp at h
    · rename_i g hg
      split at h
      · simp at h
      · cases h
        have hkey := List.find?_some hg
        simp_all
  · rintro ⟨rfl, hf⟩
    simp [judgeKey, Field.ofKey?_key, hf]

namespace Draft

variable {d d' : Draft} {m : String × Value} {ms : List (String × Value)} {f : Field}

theorem take?_eq_some :
    d.take? m = some d' ↔ ∃ f, judgeKey d m.1 = .ok f ∧ d.store? m.2 f = some d' := by
  unfold take?
  split <;> simp_all

theorem take?_field {v : Value} (h : d.has f = false) : d.take? (f.key, v) = d.store? v f := by
  rw [take?, judgeKey_eq_ok.mpr ⟨rfl, h⟩]

theorem take?_eq_none (h : ∀ f : Field, d.has f = false → f.key ≠ m.1) : d.take? m = none := by
  rw [Option.eq_none_iff_forall_ne_some]
  intro d' htake
  obtain ⟨f, hjudge, -⟩ := take?_eq_some.mp htake
  obtain ⟨hkey, hf⟩ := judgeKey_eq_ok.mp hjudge
  exact h f hf hkey.symm

theorem has_take? (h : d.take? m = some d') :
    d'.has f = true ↔ d.has f = true ∨ f.key = m.1 := by
  obtain ⟨g, hjudge, hstore⟩ := take?_eq_some.mp h
  obtain ⟨hkey, -⟩ := judgeKey_eq_ok.mp hjudge
  rw [has_store? hstore, hkey, Bool.or_eq_true, beq_iff_eq, Field.key_inj, eq_comm (a := g)]

theorem has_foldlM (h : ms.foldlM take? d = some d') :
    d'.has f = true ↔ d.has f = true ∨ f.key ∈ ms.map Prod.fst := by
  induction ms generalizing d with
  | nil =>
    cases h
    simp
  | cons m ms ih =>
    obtain ⟨d₁, htake, hrest⟩ := Option.bind_eq_some_iff.mp h
    rw [ih hrest, has_take? htake, List.map_cons, List.mem_cons, or_assoc]

end Draft

/-! ## Reading members -/

section Members

variable {us rest ts : List Token} {d d' : Draft}

theorem readMember_of_valueTokens {key : String} {v : Value} (h : ValueTokens v us rest) :
    readMember d (.string key :: .colon :: us) = .ok (d', ts) ↔
      d.take? (key, v) = some d' ∧ ts = rest := by
  rw [readMember, Draft.take?]
  cases judgeKey d key with
  | error e => simp
  | ok f => exact readField_of_valueTokens h

theorem readMembers_eq_ok :
    readMembers d us = .ok (d', ts) ↔ readMember d us = .ok (d', .closeBrace :: ts) ∨
      ∃ d₁ others, readMember d us = .ok (d₁, .comma :: others) ∧
        readMembers d₁ others = .ok (d', ts) := by
  rw [readMembers]
  split <;> simp_all

theorem readMembers_of_memberTokens {ms : List (String × Value)} (h : MemberTokens ms us rest) :
    readMembers d us = .ok (d', ts) ↔ ms.foldlM Draft.take? d = some d' ∧ ts = rest := by
  induction h generalizing d with
  | last hvalue =>
    rw [readMembers_eq_ok]
    simp [readMember_of_valueTokens hvalue]
  | more hvalue _ ih =>
    rw [readMembers_eq_ok, List.foldlM_cons]
    simp only [readMember_of_valueTokens hvalue, Option.bind_eq_bind, Option.bind_eq_some_iff]
    constructor
    · rintro (⟨_, hts⟩ | ⟨d₁, _, ⟨htake, hts⟩, hread⟩)
      · cases hts
      · cases hts
        obtain ⟨hrest, rfl⟩ := ih.mp hread
        exact ⟨⟨d₁, htake, hrest⟩, rfl⟩
    · rintro ⟨⟨d₁, htake, hrest⟩, rfl⟩
      exact .inr ⟨d₁, _, ⟨htake, rfl⟩, ih.mpr ⟨hrest, rfl⟩⟩

end Members

theorem readObject_of_memberTokens {ms : List (String × Value)} {us rest : List Token}
    (h : MemberTokens ms us rest) : readObject us = readMembers {} us := by
  cases h <;> rfl

/-- A text that is an object is read by taking its members into an empty draft. -/
theorem read_eq_ok {ms : List (String × Value)} {text : String}
    (h : Json.Document (.object ms) text) {s : Selection} :
    read text = .ok s ↔ (ms.foldlM Draft.take? {}).map Draft.complete = some s := by
  have hobject : ∃ us, Json.tokens text.toList = .openBrace :: us ∧
      ∀ d ts, readObject us = .ok (d, ts) ↔ ms.foldlM Draft.take? {} = some d ∧ ts = [] := by
    obtain ⟨us, htokens, ⟨rfl, rfl⟩ | hms⟩ := Json.tokens_of_object h
    · exact ⟨_, htokens, by simp [readObject, eq_comm]⟩
    · refine ⟨us, htokens, fun d ts => ?_⟩
      rw [readObject_of_memberTokens hms, readMembers_of_memberTokens hms]
  obtain ⟨us, htokens, hread⟩ := hobject
  have hvalue : readValue (Json.tokens text.toList) = readObject us := by rw [htokens, readValue]
  rw [read, hvalue, Option.map_eq_some_iff]
  constructor
  · intro hok
    split at hok
    · rename_i d hd
      cases hok
      exact ⟨d, ((hread d []).mp hd).1, rfl⟩
    · cases hok
    · cases hok
  · rintro ⟨d, hfill, rfl⟩
    rw [(hread d []).mpr ⟨hfill, rfl⟩]

/-! ## The library -/

/-- The reader and the writer of selections. -/
def library : Codec ReadError where
  rename
    | .snake, identifier => identifier
    | .kebab, identifier =>
      String.ofList (identifier.toList.map fun ch => if ch = '_' then '-' else ch)
  read := read
  ofMembers ms := (ms.foldlM Draft.take? {}).map Draft.complete
  bool? := Value.bool?
  string? := Value.string?
  strings? := Value.strings?
  write := text
  boolText := boolText
  stringText := Json.quote
  stringsText := stringsText
  escape := Json.escapeChar

theorem library_name (f : Field) : library.name f = f.key := by
  cases f <;> rfl

/-- A draft that takes in a value stands for the selection that does. -/
theorem map_complete_store? (d : Draft) (v : Value) (f : Field) :
    (d.store? v f).map Draft.complete = library.store? d.complete v f := by
  cases f <;> simp only [Draft.store?, Codec.store?, Option.map_map] <;> rfl

theorem ofMembers_concat (ms : List (String × Value)) (m : String × Value) :
    library.ofMembers (ms ++ [m]) =
      (ms.foldlM Draft.take? {}).bind fun d => (d.take? m).map Draft.complete := by
  simp [library, List.foldlM_append, Option.map_bind]

theorem has_of_members {ms : List (String × Value)} {d : Draft}
    (h : ms.foldlM Draft.take? {} = some d) (f : Field) :
    d.has f = true ↔ f.key ∈ ms.map Prod.fst := by
  rw [Draft.has_foldlM h]
  cases f <;> simp [Draft.has]

theorem library_reads : library.Reads where
  kebab _ := rfl
  bool := Value.bool?_eq_some
  string := Value.string?_eq_some
  strings v ss := by
    simp only [library, Value.strings?_eq_some, Value.map_eq_map_some Value.string?_eq_some]
    exact ⟨fun h => ⟨_, h, rfl⟩, fun ⟨_, h, hvs⟩ => hvs ▸ h⟩
  missing _ := rfl
  given ms f v hfresh := by
    rw [library_name] at hfresh ⊢
    rw [ofMembers_concat]
    simp only [library, Option.bind_map]
    apply Option.bind_congr
    intro d hd
    have hf : d.has f = false := by
      rw [Bool.eq_false_iff, Ne, has_of_members hd]
      exact hfresh
    rw [Draft.take?_field hf]
    exact map_complete_store? d v f
  repeated ms f v hrepeated := by
    rw [library_name] at hrepeated ⊢
    rw [ofMembers_concat, Option.bind_eq_none_iff]
    intro d hd
    rw [Draft.take?_eq_none, Option.map_none]
    intro g hg hkey
    rw [Field.key_inj.mp hkey, Bool.eq_false_iff] at hg
    exact hg ((has_of_members hd f).mpr hrepeated)
  unknown _ ms key v hunknown := by
    rw [ofMembers_concat, Option.bind_eq_none_iff]
    intro d _
    rw [Draft.take?_eq_none, Option.map_none]
    rintro g - rfl
    apply hunknown
    rw [← library_name]
    exact List.mem_map_of_mem (by cases g <;> decide)
  text _ _ h _ := read_eq_ok h

theorem library_writes : library.Writes where
  kebab _ := rfl
  record s := by
    have hfield : ∀ f, library.fieldText s f = s.fieldText f := by
      intro f
      cases f <;> rfl
    simp only [library_name, hfield]
    rfl
  bool _ := rfl
  strings _ := rfl
  string s := String.toList_inj.mp (by simp [library, Json.quote])
  plain ch hcontrol hquote hslash := by
    simp only [library, Json.escapeChar]
    split
    iterate 7 simp_all
    exact if_neg (by omega)
  short letter ch h hch := by
    simp only [Json.shortForms, List.mem_cons, Prod.mk.injEq, List.not_mem_nil, or_false] at h
    rcases h with ⟨rfl, rfl⟩ | ⟨rfl, rfl⟩ | ⟨rfl, rfl⟩ | ⟨rfl, rfl⟩ | ⟨rfl, rfl⟩ | ⟨rfl, rfl⟩ |
      ⟨rfl, rfl⟩ | ⟨rfl, rfl⟩
    iterate 2 rfl
    · exact absurd rfl hch
    iterate 5 rfl
  control ch hcontrol h := by
    simp only [library, Json.escapeChar]
    split
    · exact absurd (by decide) (h '"')
    · exact absurd (by decide) (h '\\')
    · exact absurd (by decide) (h 'b')
    · exact absurd (by decide) (h 'f')
    · exact absurd (by decide) (h 'n')
    · exact absurd (by decide) (h 'r')
    · exact absurd (by decide) (h 't')
    · exact if_pos hcontrol

end AssertionLint.Selection
