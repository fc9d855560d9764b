import AssertionLint.Finding
import AssertionLint.Text.LineIndex

/-!
# Text reports

One line for each finding, `path:line:column: rule: message`, followed by a line
for each fix, and a summary line at the end. With colours the name of the rule
and the summary are wrapped in terminal escape codes.
-/

namespace AssertionLint

/-- When a report is coloured. -/
inductive ColourMode where
  /-- Only on a terminal. -/
  | auto
  | always
  | never
  deriving DecidableEq, Repr

instance : Inhabited ColourMode := ⟨.auto⟩

def ColourMode.coloured (mode : ColourMode) (terminal : Bool) : Bool :=
  match mode with
  | auto => terminal
  | always => true
  | never => false

/-- What a report on one file needs to know. -/
structure Report where
  path : String
  source : String
  lines : LineIndex
  coloured : Bool := false

namespace Report

/-- A report without colours on the file at `path`. -/
def ofSource (path source : String) : Report := ⟨path, source, .ofSource source, false⟩

def withColours (r : Report) (mode : ColourMode) (terminal : Bool) : Report :=
  { r with coloured := mode.coloured terminal }

/-- Bold yellow. -/
def ruleColour : String := "\x1b[1;33m"

def bold : String := "\x1b[1m"

def reset : String := "\x1b[0m"

/-- Puts a text between an escape code and the code that ends it, if the report is
coloured. -/
def paint (r : Report) (code text : String) : String :=
  if r.coloured then code ++ text ++ reset else text

/-- Where a finding starts. -/
def positionOf (r : Report) (f : Finding) : Position := r.lines.position r.source f.span.start

def fixText (fix : Fix) : String := "  = fix: " ++ fix.message ++ "\n"

/-- The lines for one finding. -/
def findingText (r : Report) (f : Finding) : String :=
  let p := r.positionOf f
  r.path ++ ":" ++ toString p.line.toNat ++ ":" ++ toString p.column.toNat ++ ": " ++
    r.paint ruleColour f.rule ++ ": " ++ f.message ++ "\n" ++
    String.join (f.fixes.map fixText)

def findingsText (r : Report) (fs : List Finding) : String :=
  String.join (fs.map r.findingText)

/-- The closing line; there is none if nothing was found. -/
def summaryText (r : Report) (count : Nat) : String :=
  if count = 0 then ""
  else
    let plural := if count = 1 then "" else "s"
    r.paint bold (toString count ++ " issue" ++ plural ++ " found") ++ "\n"

/-- The whole report: all findings and the closing line. -/
def text (r : Report) (fs : List Finding) : String :=
  r.findingsText fs ++ r.summaryText fs.length

/-- The piece of source text that a finding is about, if its span is one. -/
def excerpt? (r : Report) (f : Finding) : Option String :=
  (Utf8.slice? r.source.toList f.span.start.toNat f.span.stop.toNat).map String.ofList

/-! ## Output -/

/-- What can be asked of an output. -/
inductive Step where
  | finding (f : Finding)
  | findings (fs : List Finding)
  | summary (count : Nat)
  | flush

def stepText (r : Report) : Step → String
  | .finding f => r.findingText f
  | .findings fs => r.findingsText fs
  | .summary count => r.summaryText count
  | .flush => ""

/-- Where the text goes. A broken output loses everything without complaint. -/
structure Output where
  broken : Bool := false
  /-- What each step wrote. -/
  written : List String := []
  /-- How often a flush was asked for. -/
  flushes : Nat := 0

def Output.step (r : Report) (out : Output) (s : Step) : Output :=
  { out with
    written := out.written ++ [if out.broken then "" else r.stepText s]
    flushes := out.flushes + (match s with | .flush => 1 | _ => 0) }

def Output.run (r : Report) (out : Output) (steps : List Step) : Output :=
  steps.foldl (Output.step r) out

end Report

end AssertionLint
