import AssertionLint.Json.Token
import AssertionLint.Selection.Writer
import AssertionLint.Text.Quoted

/-!
# Reading selections

A selection is read from JSON text, either an object with some of the four
members in any order or an array with values for the first so many of the four
fields. Fields that are not given have their default. The text is read from left
to right and the first problem is reported; a member name is judged as soon as
it has been read, before the value behind it.

What is proved about reading holds for every library that does what `Selection.Codec`
describes. The reader here is the one that runs.
-/

namespace AssertionLint.Selection

open Json (Token Number)

/-- What a text should have had in some place. -/
inductive Wanted where
  | boolean
  | sequence
  | string
  | selection
  deriving DecidableEq, Repr

def Wanted.text : Wanted → String
  | boolean => "a boolean"
  | sequence => "a sequence"
  | string => "a string"
  | selection => "struct CheckersConfig"

/-- Why a text is no selection. -/
inductive ReadError where
  /-- The text is no JSON, or there is more of it than one value. -/
  | malformed
  | unknownField (name : String)
  | duplicateField (field : Field)
  /-- A value of another kind than wanted. -/
  | wrongType (found : String) (wanted : Wanted)
  deriving DecidableEq, Repr

private def ticked (s : String) : String := "`" ++ s ++ "`"

namespace ReadError

def message : ReadError → String
  | malformed => "malformed text"
  | unknownField name =>
    "unknown field " ++ ticked name ++ ", expected one of " ++
      String.intercalate ", " (Field.all.map fun f => ticked f.key)
  | duplicateField field => "duplicate field " ++ ticked field.key
  | wrongType found wanted => "invalid type: " ++ found ++ ", expected " ++ wanted.text

end ReadError

/-- How a value that begins with a token is called; `none` if no value does. -/
def valueName? : Token → Option String
  | .openBrace => some "map"
  | .openBracket => some "sequence"
  | .string s => some ("string " ++ Text.quoted s)
  | .number (.integer n) => some ("integer " ++ ticked (toString n))
  | .number (.double bits) =>
    some ("floating point " ++ ticked (Decimal.doubleText Number.layout bits))
  | .bool b => some ("boolean " ++ ticked (boolText b))
  | .null => some "null"
  | _ => none

/-- The problem of a text that goes on with something else than wanted. -/
def unexpected (ts : List Token) (wanted : Wanted) : ReadError :=
  match ts.head?.bind valueName? with
  | some found => .wrongType found wanted
  | none => .malformed

/-- What reading a part of a text gives, and the tokens behind it. -/
abbrev Reading (α : Type) := Except ReadError (α × List Token)

/-! ## Values -/

def readBool : List Token → Reading Bool
  | .bool b :: rest => .ok (b, rest)
  | ts => .error (unexpected ts .boolean)

/-- The strings of an array from its next one up to the closing bracket. -/
def readItems : List Token → Reading (List String)
  | .string s :: .closeBracket :: rest => .ok ([s], rest)
  | .string s :: .comma :: rest =>
    match readItems rest with
    | .ok (ss, rest) => .ok (s :: ss, rest)
    | .error e => .error e
  | .string _ :: _ => .error .malformed
  | ts => .error (unexpected ts .string)

def readStrings : List Token → Reading (List String)
  | .openBracket :: .closeBracket :: rest => .ok ([], rest)
  | .openBracket :: rest => readItems rest
  | ts => .error (unexpected ts .sequence)

/-! ## Fields -/

/-- A selection some of whose fields have been read. -/
structure Draft where
  enableAll : Option Bool := none
  disableAll : Option Bool := none
  enable : Option (List String) := none
  disable : Option (List String) := none
  deriving DecidableEq, Repr

namespace Draft

def has (d : Draft) : Field → Bool
  | .enableAll => d.enableAll.isSome
  | .disableAll => d.disableAll.isSome
  | .enable => d.enable.isSome
  | .disable => d.disable.isSome

/-- Gives the fields that have not been read their default. -/
def complete (d : Draft) : Selection where
  enableAll := d.enableAll.getD false
  disableAll := d.disableAll.getD false
  enable := d.enable.getD []
  disable := d.disable.getD []

end Draft

private def store {α : Type} (r : Reading α) (put : α → Draft) : Reading Draft :=
  match r with
  | .ok (a, rest) => .ok (put a, rest)
  | .error e => .error e

/-- Reads the value of a field. -/
def readField (d : Draft) (f : Field) (ts : List Token) : Reading Draft :=
  match f with
  | .enableAll => store (readBool ts) fun b => { d with enableAll := some b }
  | .disableAll => store (readBool ts) fun b => { d with disableAll := some b }
  | .enable => store (readStrings ts) fun ss => { d with enable := some ss }
  | .disable => store (readStrings ts) fun ss => { d with disable := some ss }

/-- The field of a member with the given name. It must be one that has not been
read before. -/
def judgeKey (d : Draft) (key : String) : Except ReadError Field :=
  match Field.ofKey? key with
  | none => .error (.unknownField key)
  | some f => if d.has f then .error (.duplicateField f) else .ok f

/-- A member from its name up to its value. -/
def readMember (d : Draft) : List Token → Reading Draft
  | .string key :: rest =>
    match judgeKey d key with
    | .error e => .error e
    | .ok f =>
      match rest with
      | .colon :: rest => readField d f rest
      | _ => .error .malformed
  | _ => .error .malformed

/-! ## Readers move forward -/

theorem length_of_readBool {ts rest : List Token} {b : Bool} (h : readBool ts = .ok (b, rest)) :
    rest.length < ts.length := by
  unfold readBool at h
  split at h
  · simp only [Except.ok.injEq, Prod.mk.injEq] at h
    simp [h.2]
  · simp at h

theorem length_of_readItems {ts rest : List Token} {ss : List String}
    (h : readItems ts = .ok (ss, rest)) : rest.length < ts.length := by
  fun_induction readItems ts generalizing ss with
  | case1 s rest =>
    simp only [Except.ok.injEq, Prod.mk.injEq] at h
    simp only [h.2, List.length_cons]
    omega
  | case2 s more ss' rest' hr ih =>
    simp only [Except.ok.injEq, Prod.mk.injEq] at h
    obtain ⟨_, rfl⟩ := h
    have := ih hr
    simp only [List.length_cons]
    omega
  | case3 => simp at h
  | case4 => simp at h
  | case5 => simp at h

theorem length_of_readStrings {ts rest : List Token} {ss : List String}
    (h : readStrings ts = .ok (ss, rest)) : rest.length < ts.length := by
  unfold readStrings at h
  split at h
  · simp only [Except.ok.injEq, Prod.mk.injEq] at h
    simp only [h.2, List.length_cons]
    omega
  · have := length_of_readItems h
    simp only [List.length_cons]
    omega
  · simp at h

private theorem exists_of_store {α : Type} {r : Reading α} {put : α → Draft} {d : Draft}
    {rest : List Token} (h : store r put = .ok (d, rest)) : ∃ a, r = .ok (a, rest) := by
  unfold store at h
  split at h
  · simp only [Except.ok.injEq, Prod.mk.injEq] at h
    exact ⟨_, by rw [h.2]⟩
  · simp at h

theorem length_of_readField {d d' : Draft} {f : Field} {ts rest : List Token}
    (h : readField d f ts = .ok (d', rest)) : rest.length < ts.length := by
  unfold readField at h
  split at h
  all_goals obtain ⟨a, ha⟩ := exists_of_store h
  · exact length_of_readBool ha
  · exact length_of_readBool ha
  · exact length_of_readStrings ha
  · exact length_of_readStrings ha

theorem length_of_readMember {d d' : Draft} {ts rest : List Token}
    (h : readMember d ts = .ok (d', rest)) : rest.length < ts.length := by
  unfold readMember at h
  split at h
  · split at h
    · simp at h
    · split at h
      · have := length_of_readField h
        simp only [List.length_cons]
        omega
      · simp at h
  · simp at h

/-! ## Selections -/

/-- The members of an object from the next one up to the closing brace. -/
def readMembers (d : Draft) (ts : List Token) : Reading Draft :=
  match _h : readMember d ts with
  | .error e => .error e
  | .ok (d, .closeBrace :: rest) => .ok (d, rest)
  | .ok (d, .comma :: rest) => readMembers d rest
  | .ok _ => .error .malformed
termination_by ts.length
decreasing_by
  have := length_of_readMember _h
  simp only [List.length_cons] at this
  omega

/-- An object behind its opening brace. -/
def readObject : List Token → Reading Draft
  | .closeBrace :: rest => .ok ({}, rest)
  | ts => readMembers {} ts

/-- The elements of an array for the given fields up to the closing bracket. The
first element follows the opening bracket, all others a comma. -/
def readElements (d : Draft) (isFirst : Bool) : List Field → List Token → Reading Draft
  | _, .closeBracket :: rest => .ok (d, rest)
  | [], _ => .error .malformed
  | f :: fs, ts =>
    let value := if isFirst then some ts else match ts with
      | .comma :: rest => some rest
      | _ => none
    match value with
    | none => .error .malformed
    | some ts =>
      match readField d f ts with
      | .ok (d, rest) => readElements d false fs rest
      | .error e => .error e

/-- The one value of a text. -/
def readValue : List Token → Reading Draft
  | .openBrace :: rest => readObject rest
  | .openBracket :: rest => readElements {} true Field.all rest
  | ts => .error (unexpected ts .selection)

/-- Reads a selection from JSON text. -/
def read (text : String) : Except ReadError Selection :=
  match readValue (Json.tokens text.toList) with
  | .ok (d, []) => .ok d.complete
  | .ok (_, _ :: _) => .error .malformed
  | .error e => .error e

end AssertionLint.Selection
