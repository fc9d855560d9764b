import AssertionLint.Expr

/-!
# Expression arenas

An arena holds the expressions of one file, their shapes and their spans in two
arrays that grow together. Nodes are only ever added: the number of a new node is
the count of nodes before it, and what a number refers to never changes
afterwards. Numbers that were not handed out refer to nothing.
-/

namespace AssertionLint

structure Arena where
  shapes : Array Shape
  spans : Array Span
  deriving DecidableEq, Repr

namespace Arena

def empty : Arena := ⟨#[], #[]⟩

instance : Inhabited Arena := ⟨empty⟩

/-- There are as many nodes as there are numbers for them. -/
structure Overflow where
  /-- The number of nodes. -/
  size : Nat
  deriving DecidableEq, Repr

def Overflow.message (o : Overflow) : String :=
  "expression arena overflow: " ++ toString o.size ++ " expressions"

/-- The number of the node that has `n` nodes before it. The largest word is no number
of a node. -/
def idOf (n : Nat) : Except Overflow ExprId :=
  if n < UInt32.size - 1 then .ok ⟨UInt32.ofNat n⟩ else .error ⟨n⟩

/-! ## Reserved room -/

/-- No array takes more bytes than this. -/
def maxBytes : Nat := 0x7fffffffffffffff

/-- The bytes that a span takes in an array. -/
def spanBytes : Nat := 8

/-- Room was asked for that no array can have. -/
structure CapacityOverflow where
  capacity : UInt64
  deriving DecidableEq, Repr

def CapacityOverflow.message (_ : CapacityOverflow) : String := "capacity overflow"

/-- An array without entries that has room for some of the given size. -/
def reserve (α : Type) (bytes : Nat) (capacity : UInt64) : Except CapacityOverflow (Array α) :=
  if capacity.toNat * bytes ≤ maxBytes then .ok (Array.emptyWithCapacity capacity.toNat)
  else .error ⟨capacity⟩

/-- The empty arena with room for some nodes, where a shape takes `shapeBytes`. -/
def withCapacity (shapeBytes : Nat) (capacity : UInt64) : Except CapacityOverflow Arena := do
  let shapes ← reserve Shape shapeBytes capacity
  let spans ← reserve Span spanBytes capacity
  pure ⟨shapes, spans⟩

/-! ## Lookups -/

def size (a : Arena) : Nat := a.shapes.size

def isEmpty (a : Arena) : Bool := a.shapes.isEmpty

def shape? (a : Arena) (id : ExprId) : Option Shape := a.shapes[id.index]?

def span? (a : Arena) (id : ExprId) : Option Span := a.spans[id.index]?

/-- Operator and operands of a node, if it is there and is binary. -/
def binary? (a : Arena) (id : ExprId) : Option (BinaryOp × ExprId × ExprId) :=
  (a.shape? id).bind Shape.binary?

/-- All shapes with the numbers of their nodes, in the order in which they were added. -/
def toList (a : Arena) : Except Overflow (List (ExprId × Shape)) :=
  a.shapes.toList.zipIdx.mapM fun (shape, i) => (idOf i).map fun id => (id, shape)

/-! ## Additions -/

/-- Adds a node and returns its number. If there is no number left, the arena stays as
it is. -/
def alloc (a : Arena) (shape : Shape) (span : Span) : Except Overflow ExprId × Arena :=
  match idOf a.size with
  | .ok id => (.ok id, ⟨a.shapes.push shape, a.spans.push span⟩)
  | .error o => (.error o, a)

/-- What two operands cover: both if both are known, the known one if only one
is, and nothing otherwise. -/
def joinSpans : Option Span → Option Span → Span
  | some l, some r => l.merge r
  | some s, none => s
  | none, some s => s
  | none, none => Span.unknown

/-- Adds a binary expression that covers its operands. -/
def allocBinary (a : Arena) (op : BinaryOp) (left right : ExprId) :
    Except Overflow ExprId × Arena :=
  a.alloc (.binary op left right) (joinSpans (a.span? left) (a.span? right))

end Arena

end AssertionLint
