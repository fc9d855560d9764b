import AssertionLint.Proofs.SelectionLibrary

/-!
# Which objects are selections

An object is a selection exactly if its members have different names, all of them
names of fields, and hold values of the kind their field has. Every field then has the
value of its member or its default. This is so for every library that takes in one
member as selections rely on, by induction on the members from the last one.
-/

namespace AssertionLint.Selection

open Json (Value)

/-- The members that a selection may have. -/
inductive Member : String × Value → Prop
  | enableAll (b : Bool) : Member ("enable-all", .bool b)
  | disableAll (b : Bool) : Member ("disable-all", .bool b)
  | enable (names : List String) : Member ("enable", .array (names.map .string))
  | disable (names : List String) : Member ("disable", .array (names.map .string))

/-- The value of a field in JSON. -/
def value (s : Selection) : Field → Value
  | .enableAll => .bool s.enableAll
  | .disableAll => .bool s.disableAll
  | .enable => .array (s.enable.map .string)
  | .disable => .array (s.disable.map .string)

/-- What a field has if no member gives its value. -/
def Field.unset : Field → Value
  | enableAll => .bool false
  | disableAll => .bool false
  | enable => .array []
  | disable => .array []

/-- The fields of the selection have the values that the members give, and all others
have their default. -/
structure TakenFrom (s : Selection) (ms : List (String × Value)) : Prop where
  given : ∀ (f : Field) (v : Value), (f.key, v) ∈ ms → s.value f = v
  absent : ∀ f : Field, (∀ v, (f.key, v) ∉ ms) → s.value f = f.unset

theorem member_iff {m : String × Value} :
    Member m ↔ ∃ (f : Field) (s : Selection), m = (f.key, s.value f) := by
  constructor
  · rintro (b | b | names | names)
    · exact ⟨.enableAll, { enableAll := b }, rfl⟩
    · exact ⟨.disableAll, { disableAll := b }, rfl⟩
    · exact ⟨.enable, { enable := names }, rfl⟩
    · exact ⟨.disable, { disable := names }, rfl⟩
  · rintro ⟨f, s, rfl⟩
    cases f with
    | enableAll => exact .enableAll s.enableAll
    | disableAll => exact .disableAll s.disableAll
    | enable => exact .enable s.enable
    | disable => exact .disable s.disable

theorem strings_inj {names names' : List String} :
    names.map Value.string = names'.map Value.string ↔ names = names' :=
  List.map_inj_right fun _ _ h => Value.string.inj h

theorem eq_of_value_eq {s s' : Selection} (h : ∀ f, s.value f = s'.value f) : s = s' := by
  have h₁ := h .enableAll
  have h₂ := h .disableAll
  have h₃ := h .enable
  have h₄ := h .disable
  simp only [value, Value.bool.injEq, Value.array.injEq, strings_inj] at h₁ h₂ h₃ h₄
  cases s
  cases s'
  simp_all

theorem TakenFrom.eq {s s' : Selection} {ms : List (String × Value)} (h : s.TakenFrom ms)
    (h' : s'.TakenFrom ms) : s = s' := by
  apply eq_of_value_eq
  intro f
  by_cases hm : ∃ v, (f.key, v) ∈ ms
  · obtain ⟨v, hv⟩ := hm
    rw [h.given f v hv, h'.given f v hv]
  · rw [h.absent f (not_exists.mp hm), h'.absent f (not_exists.mp hm)]

theorem TakenFrom.perm {s : Selection} {ms ms' : List (String × Value)} (h : s.TakenFrom ms)
    (hperm : ms.Perm ms') : s.TakenFrom ms' where
  given f v hv := h.given f v (hperm.mem_iff.mpr hv)
  absent f hv := h.absent f fun v hm => hv v (hperm.mem_iff.mp hm)

/-- The selection with one field as another selection has it. -/
def withField (s s' : Selection) : Field → Selection
  | .enableAll => { s with enableAll := s'.enableAll }
  | .disableAll => { s with disableAll := s'.disableAll }
  | .enable => { s with enable := s'.enable }
  | .disable => { s with disable := s'.disable }

theorem value_withField (s s' : Selection) (f g : Field) :
    (s.withField s' f).value g = if f = g then s'.value g else s.value g := by
  cases f <;> cases g <;> rfl

theorem takenFrom_nil : (default : Selection).TakenFrom [] where
  given _ _ h := absurd h List.not_mem_nil
  absent f _ := by cases f <;> rfl

/-- One more member for a field that had none before. -/
theorem TakenFrom.concat {s s' : Selection} {ms : List (String × Value)} (h : s.TakenFrom ms)
    {f : Field} (hfresh : f.key ∉ ms.map Prod.fst) :
    (s.withField s' f).TakenFrom (ms ++ [(f.key, s'.value f)]) := by
  have hother : ∀ {g : Field} {v : Value}, (g.key, v) ∈ ms → f ≠ g := by
    rintro g v hv rfl
    exact hfresh (List.mem_map_of_mem hv)
  constructor
  · intro g v hv
    rw [value_withField]
    rcases List.mem_append.mp hv with hv | hv
    · rw [if_neg (hother hv)]
      exact h.given g v hv
    · obtain ⟨hkey, rfl⟩ := Prod.mk.inj (List.mem_singleton.mp hv)
      rw [Field.key_inj.mp hkey, if_pos rfl]
  · intro g hg
    have hne : f ≠ g := by
      rintro rfl
      exact hg _ (List.mem_append_right ms (List.mem_singleton_self _))
    rw [value_withField, if_neg hne]
    exact h.absent g fun v hv => hg v (List.mem_append_left _ hv)

namespace Codec

variable {Error : Type} {c : Codec Error}

theorem Names.name_eq (hc : c.Names) (f : Field) : c.name f = f.key := by
  rw [name, attributes, hc.kebab]
  cases f <;> rfl

namespace Reads

theorem strings_iff (hc : c.Reads) {v : Value} {ss : List String} :
    c.strings? v = some ss ↔ v = .array (ss.map .string) := by
  simp only [hc.strings, Value.map_eq_map_some hc.string]
  exact ⟨fun ⟨_, hv, hvs⟩ => hvs ▸ hv, fun h => ⟨_, h, rfl⟩⟩

/-- A field is read from the values of its kind, and from nothing else. -/
theorem store?_eq_some (hc : c.Reads) {s s₁ : Selection} {v : Value} {f : Field} :
    c.store? s v f = some s₁ ↔ ∃ s' : Selection, s'.value f = v ∧ s.withField s' f = s₁ := by
  cases f with
  | enableAll | disableAll =>
    simp only [store?, Option.map_eq_some_iff, hc.bool]
    constructor
    · rintro ⟨b, rfl, rfl⟩
      exact ⟨{ enableAll := b, disableAll := b }, rfl, rfl⟩
    · rintro ⟨s', rfl, rfl⟩
      exact ⟨_, rfl, rfl⟩
  | enable | disable =>
    simp only [store?, Option.map_eq_some_iff, hc.strings_iff]
    constructor
    · rintro ⟨names, rfl, rfl⟩
      exact ⟨{ enable := names, disable := names }, rfl, rfl⟩
    · rintro ⟨s', rfl, rfl⟩
      exact ⟨_, rfl, rfl⟩

/-- What one more member does. -/
theorem ofMembers_concat (hc : c.Reads) {ms : List (String × Value)} {m : String × Value}
    {s : Selection} :
    c.ofMembers (ms ++ [m]) = some s ↔
      ∃ (s₀ s' : Selection) (f : Field), c.ofMembers ms = some s₀ ∧ f.key ∉ ms.map Prod.fst ∧
        m = (f.key, s'.value f) ∧ s₀.withField s' f = s := by
  obtain ⟨key, v⟩ := m
  by_cases hknown : key ∈ Field.all.map c.name
  · obtain ⟨f, -, rfl⟩ := List.mem_map.mp hknown
    by_cases hfresh : c.name f ∈ ms.map Prod.fst
    · rw [hc.repeated ms f v hfresh]
      apply iff_of_false nofun
      rintro ⟨s₀, s', g, -, hg, hm, -⟩
      rw [← (Prod.mk.inj hm).1] at hg
      exact hg hfresh
    · rw [hc.given ms f v hfresh, Option.bind_eq_some_iff]
      simp only [hc.store?_eq_some]
      constructor
      · rintro ⟨s₀, hs₀, s', rfl, rfl⟩
        rw [hc.name_eq] at hfresh ⊢
        exact ⟨s₀, s', f, hs₀, hfresh, rfl, rfl⟩
      · rintro ⟨s₀, s', g, hs₀, -, hm, rfl⟩
        obtain ⟨hkey, rfl⟩ := Prod.mk.inj hm
        rw [hc.name_eq, Field.key_inj] at hkey
        subst hkey
        exact ⟨s₀, hs₀, s', rfl, rfl⟩
  · rw [hc.unknown rfl ms key v hknown]
    apply iff_of_false nofun
    rintro ⟨s₀, s', g, -, -, hm, -⟩
    apply hknown
    rw [(Prod.mk.inj hm).1, ← hc.name_eq g]
    exact List.mem_map_of_mem (by cases g <;> decide)

theorem exists_ofMembers_iff (hc : c.Reads) {ms : List (String × Value)} :
    (∃ s, c.ofMembers ms = some s) ↔ (ms.map Prod.fst).Nodup ∧ ∀ m ∈ ms, Member m := by
  induction ms using List.reverseRecOn with
  | nil => simp [hc.missing rfl]
  | append_singleton ms m ih =>
    have hnames : ((ms ++ [m]).map Prod.fst).Nodup ↔
        m.1 ∉ ms.map Prod.fst ∧ (ms.map Prod.fst).Nodup := by
      rw [List.map_append, List.map_singleton, ← List.concat_eq_append, List.nodup_concat]
    rw [hnames, List.forall_mem_append, List.forall_mem_singleton]
    constructor
    · rintro ⟨s, hs⟩
      obtain ⟨s₀, s', f, hs₀, hfresh, rfl, -⟩ := hc.ofMembers_concat.mp hs
      obtain ⟨hnodup, hmembers⟩ := ih.mp ⟨s₀, hs₀⟩
      exact ⟨⟨hfresh, hnodup⟩, hmembers, member_iff.mpr ⟨f, s', rfl⟩⟩
    · rintro ⟨⟨hfresh, hnodup⟩, hmembers, hm⟩
      obtain ⟨s₀, hs₀⟩ := ih.mpr ⟨hnodup, hmembers⟩
      obtain ⟨f, s', rfl⟩ := member_iff.mp hm
      exact ⟨_, hc.ofMembers_concat.mpr ⟨s₀, s', f, hs₀, hfresh, rfl, rfl⟩⟩

theorem takenFrom_of_ofMembers (hc : c.Reads) {ms : List (String × Value)} {s : Selection}
    (h : c.ofMembers ms = some s) : s.TakenFrom ms := by
  induction ms using List.reverseRecOn generalizing s with
  | nil =>
    cases (hc.missing rfl).symm.trans h
    exact takenFrom_nil
  | append_singleton ms m ih =>
    obtain ⟨s₀, s', f, hs₀, hfresh, rfl, rfl⟩ := hc.ofMembers_concat.mp h
    exact (ih hs₀).concat hfresh

section Objects

variable {ms ms' : List (String × Value)} {text text' : String}

theorem exists_read_iff (hc : c.Reads) (h : Json.Document (.object ms) text) :
    (∃ s, c.read text = .ok s) ↔ (ms.map Prod.fst).Nodup ∧ ∀ m ∈ ms, Member m := by
  simp only [hc.text ms text h]
  exact hc.exists_ofMembers_iff

theorem takenFrom_of_read (hc : c.Reads) (h : Json.Document (.object ms) text) {s : Selection}
    (hs : c.read text = .ok s) : s.TakenFrom ms :=
  hc.takenFrom_of_ofMembers ((hc.text ms text h s).mp hs)

theorem read_of_perm (hc : c.Reads) (h : Json.Document (.object ms) text)
    (h' : Json.Document (.object ms') text') (hperm : ms.Perm ms') {s : Selection}
    (hs : c.read text = .ok s) : c.read text' = .ok s := by
  obtain ⟨hnodup, hmembers⟩ := (hc.exists_read_iff h).mp ⟨s, hs⟩
  have hnodup' : (ms'.map Prod.fst).Nodup := (hperm.map Prod.fst).nodup_iff.mp hnodup
  obtain ⟨s', hs'⟩ := (hc.exists_read_iff h').mpr
    ⟨hnodup', fun m hm => hmembers m (hperm.mem_iff.mpr hm)⟩
  have hsame : s' = s := (hc.takenFrom_of_read h' hs').eq ((hc.takenFrom_of_read h hs).perm hperm)
  rw [hs', hsame]

end Objects

end Reads

/-- A text that is an object is read exactly if its members have different names and are
all members of selections. The selection has the values of the members and defaults
otherwise, whatever the order of the members. -/
theorem read_object (hc : c.Reads) {ms : List (String × Value)} {text : String}
    (h : Json.Document (.object ms) text) :
    ((∃ s, c.read text = .ok s) ↔ (ms.map Prod.fst).Nodup ∧ ∀ m ∈ ms, Member m) ∧
      (∀ s, c.read text = .ok s → s.TakenFrom ms) ∧
      ∀ (ms' : List (String × Value)) (text' : String), ms.Perm ms' →
        Json.Document (.object ms') text' → ∀ s, c.read text = .ok s ↔ c.read text' = .ok s := by
  refine ⟨hc.exists_read_iff h, fun s hs => hc.takenFrom_of_read h hs, ?_⟩
  intro ms' text' hperm h' s
  exact ⟨hc.read_of_perm h h' hperm, hc.read_of_perm h' h hperm.symm⟩

end Codec

/-- An object with blanks, an escaped letter and a pair of surrogates. -/
theorem document_escaped : Json.Document
    (.object [("disable", .array [.string "😀"]), ("enable-all", .bool true)])
    " \x7b\"disable\":[\"\\uD83d\\ude00\"] ,\"\\u0065nable-all\": true\x7d" := by
  have hblank : ∀ rest : List Char, Json.Blanks (' ' :: rest) rest := fun _ =>
    .more (.inl rfl) .none
  have hletter : ∀ rest, Json.Hex4 0x65 ("0065".toList ++ rest) rest := fun _ =>
    .digits (p := 0) (q := 0) (r := 6) (s := 5)
      (by decide) (by decide) (by decide) (by decide)
  have hhigh : ∀ rest, Json.Hex4 0xD83D ("D83d".toList ++ rest) rest := fun _ =>
    .digits (p := 13) (q := 8) (r := 3) (s := 13)
      (by decide) (by decide) (by decide) (by decide)
  have hlow : ∀ rest, Json.Hex4 0xDE00 ("de00".toList ++ rest) rest := fun _ =>
    .digits (p := 13) (q := 14) (r := 0) (s := 0)
      (by decide) (by decide) (by decide) (by decide)
  have hdisable : ∀ rest, Json.KeyText "disable" ("\"disable\":".toList ++ rest) rest :=
    fun _ => .name (s := "disable".toList) .none (.of_plain (by simp)) .none .none
  have henableAll : ∀ rest,
      Json.KeyText "enable-all" ("\"\\u0065nable-all\": ".toList ++ rest) rest := fun _ =>
    .name (s := "enable-all".toList) .none
      (.char (.number (hletter _)) (.of_plain (s := "nable-all".toList) (by simp)))
      .none (hblank _)
  have hemoji : ∀ rest,
      Json.ValueText (.string "😀") ("\"\\uD83d\\ude00\"".toList ++ rest) rest := fun _ =>
    .string (s := ['😀']) (.char (.pair (by decide) (hhigh _) (hlow _)) .close)
  have hlast :=
    Json.MembersText.last (henableAll _) (.bool (b := true)) (@Json.Blanks.none ['\x7d'])
  have hmembers := Json.MembersText.more (hdisable _) (.array (.last .none (hemoji _) .none))
    (hblank _) hlast
  exact ⟨_, [], hblank _, .object hmembers, .none⟩

theorem read_object_escaped :
    let text := " \x7b\"disable\":[\"\\uD83d\\ude00\"] ,\"\\u0065nable-all\": true\x7d"
    library.Reads ∧
      Json.Document
        (.object [("disable", .array [.string "😀"]), ("enable-all", .bool true)]) text ∧
      library.read text = .ok { enableAll := true, disable := ["😀"] } := by
  intro text
  obtain ⟨haccepts, hvalues, -⟩ := Codec.read_object library_reads document_escaped
  have hmembers : ∀ m ∈ [("disable", Value.array [.string "😀"]), ("enable-all", .bool true)],
      Member m := by
    simp only [List.forall_mem_cons]
    exact ⟨.disable ["😀"], .enableAll true, by simp⟩
  obtain ⟨s, hs⟩ := haccepts.mpr ⟨by decide, hmembers⟩
  have hgiven := (hvalues s hs).given
  have habsent := (hvalues s hs).absent
  have heq : s = { enableAll := true, disable := ["😀"] } := by
    apply eq_of_value_eq
    intro f
    cases f with
    | enableAll => exact hgiven .enableAll (.bool true) (by simp [Field.key])
    | disableAll => exact habsent .disableAll (by simp [Field.key])
    | enable => exact habsent .enable (by simp [Field.key])
    | disable => exact hgiven .disable (.array [.string "😀"]) (by simp [Field.key])
  exact ⟨library_reads, document_escaped, by rw [hs, heq]⟩

end AssertionLint.Selection
