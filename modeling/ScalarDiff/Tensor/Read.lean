import ScalarDiff.Tensor
import ScalarDiff.Error

/-!
# Reading nested data as a tensor

A value becomes a tensor by one depth-first walk that finds the shape and the element type
together. Lists are dimensions. Every other value is an entry: texts and tables as well as
numbers, truth values and nothing. The walk keeps:
* the shape found so far;
* the greatest number of dimensions still possible, at most 64;
* whether an entry or an empty list has fixed the number of dimensions;
* whether the data has turned out not to be rectangular (ragged).

A list at depth `d` fixes size `d` of the shape when nothing has fixed the dimensions yet.
Otherwise its length must equal that size. When it does not, only the first `d` dimensions are
usable. An empty list fixes the dimensions at `d + 1`, and an entry at depth `d` fixes them at
`d`. Fixing them at a different number a second time makes the data ragged, and so does a list
found where the dimensions already end. The element type is the common type
(`ScalarDiff.DType.promote`) of the entries met before the data turned ragged. Data with no
entry at all is an array of doubles.

Ragged data is refused with the number of dimensions that remained usable and the shape up to
there. Data nested 64 deep or more is refused as too deep instead. In a tensor of texts, numbers
are written out as texts.

-/

namespace ScalarDiff

namespace Tensor

/-- The most dimensions a tensor may have. -/
def maxDims : Nat := 64

/-- The state of the walk over nested data. -/
structure Walk where
  /-- The greatest number of dimensions still possible. -/
  limit : Nat
  /-- The sizes found so far, by depth. -/
  shape : List Nat
  /-- Whether an entry or an empty list has fixed the number of dimensions. -/
  fixed : Bool
  /-- Whether the data has turned out not to be rectangular. -/
  ragged : Bool
  /-- The common type of the entries met so far. -/
  dtype : Option DType
  /-- The entries met so far, the last first. -/
  entries : List Datum

namespace Walk

/-- The walk before any step. -/
def start : Walk := ⟨maxDims, [], false, false, none, []⟩

/-- Meet an entry at depth `d`. It fixes the number of dimensions at `d`. That is ragged when
`d` lies beyond the limit, or when the number was already fixed at another depth. -/
def entry (w : Walk) (d : Nat) (x : Datum) : Walk :=
  if d > w.limit then { w with ragged := true, fixed := true }
  else if d ≠ w.limit ∧ w.fixed then { w with limit := d, ragged := true }
  else
    let dtype := match w.dtype with
      | none => DType.ofDatum x
      | some t => t.promote (DType.ofDatum x)
    { w with limit := d, fixed := true, dtype := some dtype, entries := x :: w.entries }

/-- Meet a list of `size` items at depth `d` below the limit, before its items: whether its
items are to be walked, and the walk after it. -/
def list (w : Walk) (d size : Nat) : Bool × Walk :=
  if d + 1 > w.limit then (false, { w with ragged := true })
  else if !w.fixed then
    let w' := { w with shape := w.shape.take d ++ [size] }
    if size = 0 then (false, { w' with fixed := true, limit := d + 1 }) else (true, w')
  else if w.shape.getD d 0 ≠ size then (false, { w with ragged := true, limit := d })
  else if size = 0 then (false, { w with limit := d + 1 })
  else (true, w)

end Walk

mutual

/-- Walk a value found at depth `d`. -/
def walk (d : Nat) (w : Walk) : Datum → Walk
  | .list items =>
    if d = w.limit then { w.entry d (.list items) with ragged := true }
    else
      match w.list d items.length with
      | (true, w') => walkItems (d + 1) w' items
      | (false, w') => w'
  | x => w.entry d x

/-- Walk the items of a list, each at depth `d`. -/
def walkItems (d : Nat) (w : Walk) : List Datum → Walk
  | [] => w
  | x :: xs => walkItems d (walk d w x) xs

end

/-- An entry of a tensor of texts: numbers and truth values written out as texts. -/
def asText : Datum → Datum
  | .int i => .text (toString i)
  | .bool b => .text (if b then "True" else "False")
  | .real x => .text x.text
  | x => x

/-- A value read as a tensor. Ragged data, and data nested too deep, are refused. -/
def ofDatum (x : Datum) : Except Abort Tensor :=
  let w := walk 0 Walk.start x
  if w.ragged then
    if w.limit = maxDims then .error (.tooManyDimensions maxDims)
    else .error (.ragged w.limit (w.shape.take w.limit))
  else
    let dtype := w.dtype.getD .float64
    let items := w.entries.reverse
    .ok ⟨w.shape.take w.limit, dtype, if dtype.isText then items.map asText else items⟩

end Tensor

end ScalarDiff
