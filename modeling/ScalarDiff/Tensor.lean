import ScalarDiff.Datum

/-!
# Tensors: rectangular arrays of values

A tensor is a rectangular array with any number of dimensions. It is stored as its shape, its
element type and its entries in row-major order. The element type is one of:
* truth values;
* signed or unsigned 64-bit integers;
* doubles;
* texts of at most a fixed number of characters;
* arbitrary values.

Dynamic values meet derivative arrays as tensors, and the two are combined entry by entry
(`ScalarDiff.Tensor.combine`).

## Broadcasting

Two shapes combine by aligning their last dimensions. At each position the two sizes must be
equal, or one of them must be `1`; a missing size counts as `1`. The result takes the other size
where one is `1`, so `1` and `0` give `0`. An entry of the result reads, from each operand, the
entry at the same position. Where that operand's size is `1`, it reads position `0` instead.
-/

namespace ScalarDiff


/-- The element type of a tensor. -/
inductive DType where
  | truth
  | int64
  | uint64
  | float64
  /-- Texts of at most `width` characters. -/
  | text (width : Nat)
  /-- Arbitrary values. -/
  | object
  deriving DecidableEq, Repr

namespace DType

/-- The name of an element type in messages (`bool`, `float64`, `<U3`, `O`). -/
def name : DType → String
  | .truth => "bool"
  | .int64 => "int64"
  | .uint64 => "uint64"
  | .float64 => "float64"
  | .text w => "<U" ++ toString w
  | .object => "O"

/-- Whether the elements are texts. -/
def isText : DType → Bool
  | .text _ => true
  | _ => false

/-- The number of characters a text needs to hold any element of a numeric type. A text type
holds its own width. -/
def textWidth : DType → Nat
  | .truth => 5
  | .int64 => 21
  | .uint64 => 20
  | .float64 => 32
  | .text w => w
  | .object => 0

/-- The common type of two numeric types. Truth values join any type. Integers of one
signedness stay integers. Anything else becomes doubles, including signed with unsigned
integers, since neither holds the other. -/
def promoteNumber : DType → DType → DType
  | .truth, b => b
  | a, .truth => a
  | .int64, .int64 => .int64
  | .uint64, .uint64 => .uint64
  | _, _ => .float64

/-- The common type of two element types. Arbitrary values absorb everything. Texts absorb
numbers and widen to hold them as text. Numbers follow `promoteNumber`. -/
def promote : DType → DType → DType
  | .object, _ => .object
  | _, .object => .object
  | .text w, .text v => .text (max w v)
  | .text w, b => .text (max w b.textWidth)
  | a, .text w => .text (max a.textWidth w)
  | a, b => promoteNumber a b

/-- The element type of a single value. An integer is a signed 64-bit integer when it fits, an
unsigned one when only that fits, and an arbitrary value beyond both. A text holds at least one
character. Nothing, tables and lists are arbitrary values. -/
def ofDatum : Datum → DType
  | .bool _ => .truth
  | .int i =>
    if -Int.pow 2 63 ≤ i ∧ i < Int.pow 2 63 then .int64
    else if 0 ≤ i ∧ i < Int.pow 2 64 then .uint64
    else .object
  | .real _ => .float64
  | .text s => .text (max 1 s.length)
  | _ => .object

end DType

/-- A rectangular array: its shape, its element type and its entries in row-major order. -/
structure Tensor where
  shape : List Nat
  dtype : DType
  items : List Datum

namespace Shape

/-- The sizes two reversed shapes broadcast to, reversed, if they do. -/
def broadcastReversed : List Nat → List Nat → Option (List Nat)
  | [], ys => some ys
  | xs, [] => some xs
  | x :: xs, y :: ys => do
    let d ← if x = y then some x else if x = 1 then some y else if y = 1 then some x else none
    (d :: ·) <$> broadcastReversed xs ys

/-- The shape two shapes broadcast to, if they do. -/
def broadcast? (s t : List Nat) : Option (List Nat) :=
  List.reverse <$> broadcastReversed s.reverse t.reverse

/-- Every position of a shape, in row-major order. -/
def positions : List Nat → List (List Nat)
  | [] => [[]]
  | d :: ds => (List.range d).flatMap fun i => (positions ds).map (i :: ·)

/-- The row-major offset, in an operand of shape `s`, of the entry that a broadcast result
reads at position `pos`. The position is aligned at its last coordinate, and a dimension of size
`1` is read at `0`. -/
def offset (s pos : List Nat) : Nat :=
  (List.zip s (pos.drop (pos.length - s.length))).foldl
    (fun acc (size, c) => acc * size + (if size = 1 then 0 else c)) 0

end Shape

namespace Tensor

/-- The entry a broadcast result reads at position `pos`. -/
def entryAt (a : Tensor) (pos : List Nat) : Datum :=
  a.items.getD (Shape.offset a.shape pos) .none

/-- A tensor of doubles, all zero. -/
def zeros (shape : List Nat) : Tensor :=
  ⟨shape, .float64, List.replicate (shape.foldr (· * ·) 1) (.real 0.0)⟩

/-- Row `i` of the identity matrix of size `n`, as a tensor of doubles. -/
def unitRow (n i : Nat) : Tensor :=
  ⟨[n], .float64, (List.range n).map fun k => .real (if k = i then 1.0 else 0.0)⟩

/-- Entries in row-major order, nested as lists by a shape. -/
def nest : List Nat → List Datum → Datum
  | [], items => items.headD .none
  | d :: ds, items =>
    let block := ds.foldr (· * ·) 1
    .list ((List.range d).map fun i => nest ds ((items.drop (i * block)).take block))

/-- A tensor as nested lists of its entries. A tensor without dimensions is its single
entry. -/
def nested (a : Tensor) : Datum := nest a.shape a.items

end Tensor

end ScalarDiff
