import AssertionLint.Text.Utf8

/-!
# Line and column lookup

A line index keeps the byte offset at which each line of a text starts and finds
the line of an offset by bisection. Lines and columns count from one, columns
count characters, and an offset inside a character or past the end of the text
counts as the last boundary before it.

All offsets, lines and columns are 32-bit words. A line start that does not fit
is cut to the largest word; an index or a character count that does not fit is
cut to the largest word but one before it is counted from one.
-/

namespace AssertionLint

/-- A place in a text: line and column, both counted from one. -/
structure Position where
  line : UInt32
  column : UInt32
  deriving DecidableEq, Repr

/-- The byte offsets at which the lines of a text start. -/
structure LineIndex where
  starts : Array UInt32
  deriving DecidableEq, Repr

namespace LineIndex

/-- The index without any line. -/
def empty : LineIndex := ⟨#[]⟩

instance : Inhabited LineIndex := ⟨empty⟩

/-- The number `n` as a word, cut to the largest word if it does not fit. -/
def saturate (n : Nat) : UInt32 :=
  if n < UInt32.size then UInt32.ofNat n else UInt32.ofNat (UInt32.size - 1)

/-- The byte positions that follow a line feed, in a text that begins at byte
`pos`. -/
def startsAfter (pos : Nat) : List Char → List Nat
  | [] => []
  | c :: cs =>
    let next := pos + c.utf8Size
    if c = '\n' then next :: startsAfter next cs else startsAfter next cs

/-- The index of a text: the first line starts at zero, every other one behind a
line feed. -/
def ofSource (source : String) : LineIndex :=
  ⟨((0 :: startsAfter 0 source.toList).map saturate).toArray⟩

def lineCount (ix : LineIndex) : Nat := ix.starts.size

/-- Bisection for the end of the entries that are not above `offset`, known to
lie between `lo` and `hi`. -/
def bisect (starts : Array UInt32) (offset : UInt32) (lo hi : Nat) : Nat :=
  if lo < hi then
    let mid := (lo + hi) / 2
    if starts[mid]?.any (· ≤ offset) then bisect starts offset (mid + 1) hi
    else bisect starts offset lo mid
  else lo
termination_by hi - lo

/-- Index of the last line that does not start after `offset`. -/
def lineIndexOf (ix : LineIndex) (offset : UInt32) : Nat :=
  bisect ix.starts offset 0 ix.starts.size - 1

/-- The index `n` counted from one, in the arithmetic of words. An index that does
not fit is cut to the largest word but one before. -/
def ordinal (n : Nat) : UInt32 :=
  (if n < UInt32.size then UInt32.ofNat n else UInt32.ofNat (UInt32.size - 2)) + 1

/-- The line that contains `offset`, counted from one. -/
def lineOf (ix : LineIndex) (offset : UInt32) : UInt32 := ordinal (ix.lineIndexOf offset)

/-- Where a line starts; a line that the index does not have starts at zero. -/
def startOf (ix : LineIndex) (line : UInt32) : UInt32 :=
  (ix.starts[(line - 1).toNat]?).getD 0

/-- Number of whole characters of `source` between byte `start` and byte
`offset`. There are none if `start` is no boundary of the text or lies after
`offset`. -/
def charsBetween (source : List Char) (start offset : Nat) : Nat :=
  ((Utf8.slice? source start (Utf8.floor source offset)).map List.length).getD 0

/-- Line and column of a byte offset in `source`. -/
def position (ix : LineIndex) (source : String) (offset : UInt32) : Position :=
  let line := ix.lineOf offset
  ⟨line, ordinal (charsBetween source.toList (ix.startOf line).toNat offset.toNat)⟩

end LineIndex

end AssertionLint
