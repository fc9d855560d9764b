import AssertionLint.Proofs.SelectionGrammar
import AssertionLint.Proofs.Spelling

/-!
# Written selections are read back

What is written for a selection is an object with a member for each field, spelled
without blanks: every character is escaped to one of its spellings. An object that holds
the values of a selection is read as this selection.
-/

namespace AssertionLint.Selection

open Json (Value Spells CharText)

/-- The members of a selection, with the value of every field. -/
def members (s : Selection) : List (String × Value) := Field.all.map fun f => (f.key, s.value f)

theorem takenFrom_members (s : Selection) : s.TakenFrom s.members where
  given f v h := by
    obtain ⟨g, -, hg⟩ := List.mem_map.mp h
    obtain ⟨hkey, rfl⟩ := Prod.mk.inj hg
    rw [Field.key_inj.mp hkey]
  absent f h := absurd (List.mem_map_of_mem (by cases f <;> decide)) (h (s.value f))

theorem member_of_mem_members {s : Selection} {m : String × Value} (h : m ∈ s.members) :
    Member m := by
  obtain ⟨f, -, rfl⟩ := List.mem_map.mp h
  exact member_iff.mpr ⟨f, s, rfl⟩

theorem nodup_members (s : Selection) : (s.members.map Prod.fst).Nodup := by
  rw [members, List.map_map]
  exact (by decide : (Field.all.map Field.key).Nodup)

namespace Codec

variable {Error : Type} {c : Codec Error}

namespace Writes

/-- What is written for a character is one of its spellings. -/
theorem charText_escape (hc : c.Writes) (ch : Char) (rest : List Char) :
    CharText ch (c.escape ch ++ rest) rest := by
  by_cases hshort : ∃ letter, (letter, ch) ∈ Json.shortForms ∧ ch ≠ '/'
  · obtain ⟨letter, hletter, hslash⟩ := hshort
    rw [hc.short letter ch hletter hslash]
    exact .short hletter
  · push Not at hshort
    by_cases hcontrol : ch.toNat < 0x20
    · have hnone : ∀ letter, (letter, ch) ∉ Json.shortForms := by
        intro letter hletter
        rw [hshort letter hletter] at hcontrol
        exact absurd hcontrol (by decide)
      rw [hc.control ch hcontrol hnone]
      exact .number (Json.hex4_low (by omega) rest)
    · have hquote : ch ≠ '"' := by
        rintro rfl
        exact absurd (hshort '"' (by decide)) (by decide)
      have hbackslash : ch ≠ '\\' := by
        rintro rfl
        exact absurd (hshort '\\' (by decide)) (by decide)
      rw [hc.plain ch (by omega) hquote hbackslash]
      exact .plain (by omega) hquote hbackslash

theorem spells_stringText (hc : c.Writes) (s : String) : Spells (c.stringText s) (.string s) := by
  rw [hc.string]
  exact Json.spells_string hc.charText_escape s

theorem spells_fieldText (hc : c.Writes) (s : Selection) (f : Field) :
    Spells (c.fieldText s f) (s.value f) := by
  have hbool : ∀ b, Spells (c.boolText b) (.bool b) := by
    intro b
    rw [hc.bool]
    exact Json.spells_bool b
  have hstrings : ∀ ss, Spells (c.stringsText ss) (.array (ss.map .string)) := by
    intro ss
    rw [hc.strings]
    exact Json.spells_array hc.spells_stringText ss
  cases f with
  | enableAll => exact hbool s.enableAll
  | disableAll => exact hbool s.disableAll
  | enable => exact hstrings s.enable
  | disable => exact hstrings s.disable

/-- A selection is written as the object of its members. -/
theorem document_write (hc : c.Writes) (s : Selection) :
    Json.Document (.object s.members) (c.write s) := by
  have hkey : ∀ (f : Field) (rest : List Char),
      Json.KeyText f.key ((c.stringText (c.name f) ++ ":").toList ++ rest) rest := by
    intro f rest
    rw [hc.name_eq, hc.string]
    exact Json.keyText_string hc.charText_escape f.key rest
  rw [hc.record]
  exact (Json.spells_object hkey (hc.spells_fieldText s) Field.all).document

end Writes

/-- Whatever its flags and names, a selection is read back from the text that is
written for it. -/
theorem read_write (hr : c.Reads) (hw : c.Writes) (s : Selection) :
    c.read (c.write s) = .ok s := by
  have hdocument := hw.document_write s
  obtain ⟨s', hs'⟩ := (hr.exists_read_iff hdocument).mpr
    ⟨s.nodup_members, fun m => member_of_mem_members⟩
  have hsame : s' = s := (hr.takenFrom_of_read hdocument hs').eq s.takenFrom_members
  rw [hs', hsame]

end Codec

/-- Names with a quote, a backslash, control characters with and without a letter of
their own, a slash and characters of several bytes. -/
theorem read_write_escapes :
    let s : Selection := { enableAll := true, enable := ["a\"b\\c", "\n\x01/", "é😀"] }
    library.Reads ∧ library.Writes ∧
      library.write s =
        "\x7b\"enable-all\":true,\"disable-all\":false," ++
          "\"enable\":[\"a\\\"b\\\\c\",\"\\n\\u0001/\",\"é😀\"],\"disable\":[]\x7d" ∧
      library.read (library.write s) = .ok s := by
  intro s
  exact ⟨library_reads, library_writes, by decide, Codec.read_write library_reads library_writes s⟩

end AssertionLint.Selection
