import ScalarDiff.Datum.Arith
import ScalarDiff.Tangent
import ScalarDiff.Tensor.Read

/-!
# Elementwise operations on tensors

Two tensors combine entry by entry in three steps, and the first step that fails decides:
1. **Types.** If either operand holds arbitrary values, every pair of entries is combined as
   values (`ScalarDiff.Datum.mul` and its siblings), and the result holds arbitrary values.
   Otherwise an operand of texts has no rule and is refused, naming the operation and both
   element types. Otherwise the entries are read as doubles and combined as doubles.
2. **Shapes.** The shapes must broadcast (`ScalarDiff.Shape.broadcast?`). If they do not, the
   operation is refused, naming both shapes.
3. **Entries.** The entries of the result are computed in row-major order, and the first pair
   that fails aborts.

In a sweep, one operand of every elementwise operation is an array of doubles or of values.
This is why numbers of every type combine as doubles here.

A value scales a tensor as the value read as a tensor, except that a lone integer takes the
tensor's type (`ScalarDiff.Tensor.scaleBy`). The outer product of two tensors flattens both and combines a column with a row. Negation
negates numbers as doubles and other entries as values. A tensor has a nonzero entry when one
of its entries is truthy. Only tensors of numbers can be tested for finiteness.

A sweep over dynamic values keeps its gradients and Hessians as tensors. They start as arrays of
doubles: zero gradients and Hessians, and rows of the identity for the inputs. A value scales a
derivative array entry by entry (`ScalarDiff.Tensor.scaleBy`). A list value therefore
broadcasts against the array and can change its shape, a text has no product with doubles, an
integer beyond every double cannot scale doubles at all, and a value that is no number makes an
array of values. Sums, differences, negations and outer products are the elementwise operations
above, and the finiteness tests refuse arrays of values.
-/

namespace ScalarDiff

namespace Datum

/-- Whether a value counts as true. Nothing, `False`, zero, and empty texts, lists and tables
count as false; NaN counts as true. -/
def truthy : Datum → Bool
  | .none => false
  | .bool b => b
  | .int i => i ≠ 0
  | .real x => !(x == 0.0)
  | .text s => !s.isEmpty
  | .list items => !items.isEmpty
  | .dict entries => !entries.isEmpty

end Datum

/-- An elementwise operation: its name, its rule on doubles and its rule on values. -/
structure Elementwise where
  name : String
  onFloat : Float → Float → Float
  onDatum : Datum → Datum → Except Abort Datum

namespace Elementwise

/-- The entrywise product. -/
def multiply : Elementwise := ⟨"multiply", (· * ·), Datum.mul⟩

/-- The entrywise sum. -/
def add : Elementwise := ⟨"add", (· + ·), Datum.add⟩

/-- The entrywise difference. -/
def subtract : Elementwise := ⟨"subtract", (· - ·), Datum.sub⟩

end Elementwise

namespace Tensor

/-- The number of entries. -/
def size (a : Tensor) : Nat := a.items.length

/-- Combine two tensors entry by entry. -/
def combine (f : Elementwise) (a b : Tensor) : Except Abort Tensor := do
  let values : Bool := a.dtype == .object || b.dtype == .object
  if !values && (a.dtype.isText || b.dtype.isText) then
    throw (.noLoop f.name a.dtype.name b.dtype.name)
  let some shape := Shape.broadcast? a.shape b.shape
    | throw (.notBroadcastable [a.shape, b.shape])
  let pairs := (Shape.positions shape).map fun pos => (a.entryAt pos, b.entryAt pos)
  if values then
    let items ← pairs.mapM fun (x, y) => f.onDatum x y
    pure ⟨shape, .object, items⟩
  else
    let items ← pairs.mapM fun (x, y) => do
      pure (Datum.real (f.onFloat (← Datum.toReal x) (← Datum.toReal y)))
    pure ⟨shape, .float64, items⟩

/-- A tensor scaled by a value on the left. A lone integer takes the type of the tensor, however
large it is: against doubles it is read as a double first, which aborts for an integer beyond
every double even when the tensor is empty, and against arbitrary values it stays an integer.
Any other value is read as a tensor (`ScalarDiff.Tensor.ofDatum`). -/
def scaleBy (v : Datum) (a : Tensor) : Except Abort Tensor := do
  let t ← match v with
    | .int _ =>
      if a.dtype == .object then pure ⟨[], .int64, [v]⟩
      else (fun x => (⟨[], .float64, [.real x]⟩ : Tensor)) <$> Datum.toReal v
    | _ => ofDatum v
  combine .multiply t a

/-- The outer product: entry `(i, j)` combines entry `i` of the first tensor with entry `j` of
the second, both flattened. -/
def outer (a b : Tensor) : Except Abort Tensor :=
  combine .multiply ⟨[a.size, 1], a.dtype, a.items⟩ ⟨[1, b.size], b.dtype, b.items⟩

/-- The negation of every entry. -/
def negate (a : Tensor) : Except Abort Tensor :=
  match a.dtype with
  | .object | .text _ => (fun items => ⟨a.shape, .object, items⟩) <$> a.items.mapM Datum.neg
  | _ => (fun items => ⟨a.shape, .float64, items⟩) <$>
    a.items.mapM fun x => (fun v => Datum.real (-v)) <$> Datum.toReal x

/-- Whether some entry is truthy. -/
def anyNonzero (a : Tensor) : Bool := a.items.any Datum.truthy

/-- Whether every entry is finite. Only tensors of numbers can be tested. -/
def allFinite (a : Tensor) : Except Abort Bool :=
  match a.dtype with
  | .object | .text _ => .error .noFiniteTest
  | _ => a.items.allM fun x => Float.isFinite <$> Datum.toReal x

/-- The tensor of doubles with the same shape, each entry read as a double. -/
def toReal (a : Tensor) : Except Abort Tensor :=
  (fun items => ⟨a.shape, .float64, items⟩) <$> a.items.mapM fun x => Datum.real <$> Datum.toReal x

end Tensor

/-- Tensors as the derivative arrays of dynamic values. -/
instance : Tangent Datum Tensor Tensor where
  zeroGrad n := Tensor.zeros [n]
  unitGrad n i := Tensor.unitRow n i
  zeroHess n := Tensor.zeros [n, n]
  scaleGrad := Tensor.scaleBy
  scaleHess := Tensor.scaleBy
  addGrad := Tensor.combine .add
  subGrad := Tensor.combine .subtract
  addHess := Tensor.combine .add
  subHess := Tensor.combine .subtract
  negGrad := Tensor.negate
  negHess := Tensor.negate
  outer := Tensor.outer
  gradNonzero := Tensor.anyNonzero
  hessNonzero := Tensor.anyNonzero
  gradFinite := Tensor.allFinite
  hessFinite := Tensor.allFinite
  gradReal := Tensor.toReal
  hessReal := Tensor.toReal

end ScalarDiff
