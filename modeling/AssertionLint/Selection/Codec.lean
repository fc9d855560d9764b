import AssertionLint.Json.Grammar
import AssertionLint.Selection.Record

/-!
# Libraries that read and write selections

Selections are read and written by a library that is only told what kind of record they
are. What it is relied on for is said here of one part at a time: which values a boolean
or a string is read from, what one more member of an object does, how a character is
written inside a string. What becomes of whole selections follows for every library that
does this.
-/

namespace AssertionLint.Selection

open Json (Value)

/-- A library that reads and writes selections, with the parts it does this with. -/
structure Codec (Error : Type) where
  /-- The name of the member for a field with the given identifier. -/
  rename : Casing → String → String
  /-- Reads a selection from a text. -/
  read : String → Except Error Selection
  /-- Reads a selection from the members of an object. -/
  ofMembers : List (String × Value) → Option Selection
  bool? : Value → Option Bool
  string? : Value → Option String
  strings? : Value → Option (List String)
  /-- Writes a selection. -/
  write : Selection → String
  boolText : Bool → String
  stringText : String → String
  stringsText : List String → String
  /-- One character inside a string. -/
  escape : Char → List Char

namespace Codec

variable {Error : Type}

/-- The name of the member that holds a field. -/
def name (c : Codec Error) (f : Field) : String := c.rename attributes.casing f.identifier

/-- The selection with one field read from a value. -/
def store? (c : Codec Error) (s : Selection) (v : Value) : Field → Option Selection
  | .enableAll => (c.bool? v).map fun b => { s with enableAll := b }
  | .disableAll => (c.bool? v).map fun b => { s with disableAll := b }
  | .enable => (c.strings? v).map fun names => { s with enable := names }
  | .disable => (c.strings? v).map fun names => { s with disable := names }

def fieldText (c : Codec Error) (s : Selection) : Field → String
  | .enableAll => c.boolText s.enableAll
  | .disableAll => c.boolText s.disableAll
  | .enable => c.stringsText s.enable
  | .disable => c.stringsText s.disable

/-- The words of an identifier are joined by hyphens. -/
structure Names (c : Codec Error) : Prop where
  kebab (identifier : String) : c.rename .kebab identifier =
    String.ofList (identifier.toList.map fun ch => if ch = '_' then '-' else ch)

/-- What a library is relied on for when it reads. -/
structure Reads (c : Codec Error) : Prop extends c.Names where
  bool (v : Value) (b : Bool) : c.bool? v = some b ↔ v = .bool b
  string (v : Value) (s : String) : c.string? v = some s ↔ v = .string s
  /-- A list is read from an array, element by element. -/
  strings (v : Value) (ss : List String) :
    c.strings? v = some ss ↔ ∃ vs, v = .array vs ∧ vs.map c.string? = ss.map some
  /-- Fields without a member are those of the default record. -/
  missing : attributes.fillsMissing = true → c.ofMembers [] = some default
  /-- A member gives its field the value it has, and leaves the others as they are. -/
  given (ms : List (String × Value)) (f : Field) (v : Value) : c.name f ∉ ms.map Prod.fst →
    c.ofMembers (ms ++ [(c.name f, v)]) = (c.ofMembers ms).bind fun s => c.store? s v f
  /-- No field has two members. -/
  repeated (ms : List (String × Value)) (f : Field) (v : Value) : c.name f ∈ ms.map Prod.fst →
    c.ofMembers (ms ++ [(c.name f, v)]) = none
  unknown : attributes.deniesUnknown = true →
    ∀ (ms : List (String × Value)) (key : String) (v : Value), key ∉ Field.all.map c.name →
      c.ofMembers (ms ++ [(key, v)]) = none
  /-- A text that is an object is read as its members, whatever they are spelled like. -/
  text (ms : List (String × Value)) (text : String) : Json.Document (.object ms) text →
    ∀ s, c.read text = .ok s ↔ c.ofMembers ms = some s

/-- What a library is relied on for when it writes. Nothing is written between the parts
but the signs of JSON. -/
structure Writes (c : Codec Error) : Prop extends c.Names where
  /-- Each field has a member, in the order of the record. -/
  record (s : Selection) : c.write s =
    "\x7b" ++ String.intercalate ","
      (Field.all.map fun f => c.stringText (c.name f) ++ ":" ++ c.fieldText s f) ++ "\x7d"
  bool (b : Bool) : c.boolText b = if b then "true" else "false"
  strings (ss : List String) :
    c.stringsText ss = "[" ++ String.intercalate "," (ss.map c.stringText) ++ "]"
  string (s : String) :
    c.stringText s = "\"" ++ String.ofList (s.toList.flatMap c.escape) ++ "\""
  /-- Most characters stand for themselves. -/
  plain (ch : Char) : 0x20 ≤ ch.toNat → ch ≠ '"' → ch ≠ '\\' → c.escape ch = [ch]
  /-- A character with a letter of its own is written with it, but for the slash. -/
  short (letter ch : Char) : (letter, ch) ∈ Json.shortForms → ch ≠ '/' →
    c.escape ch = ['\\', letter]
  /-- All other control characters are written by number. -/
  control (ch : Char) : ch.toNat < 0x20 → (∀ letter, (letter, ch) ∉ Json.shortForms) →
    c.escape ch =
      ['\\', 'u', '0', '0', Nat.digitChar (ch.toNat / 16), Nat.digitChar (ch.toNat % 16)]

end Codec

end AssertionLint.Selection
