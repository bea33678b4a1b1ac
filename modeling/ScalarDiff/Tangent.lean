import ScalarDiff.Scalar

/-!
# Derivative arrays

A forward sweep carries, beside every value, its gradient with respect to the inputs and, in a
second-order sweep, its Hessian. This module says what the jet rules need from those arrays:
zero and unit arrays to start from, scaling by a value, sums and differences, negation, the
outer product of two gradients, a test for a nonzero entry, and a test for finiteness.

For doubles the arrays are dense: a gradient is a list of doubles and a Hessian a list of rows
(`ScalarDiff.Dense`). Every operation there is entrywise and none aborts, so each entry is
computed by the same IEEE operations in the same order wherever it appears, and a symmetric
matrix stays symmetric under scaling, sums and the symmetric product `g ⊗ h + h ⊗ g`.

Dynamic values scale arrays as array arithmetic does, with shapes that broadcast and elements
of any type (`ScalarDiff.Tensor`); there every operation may abort.
-/

namespace ScalarDiff

/-- Derivative arrays for values of type `α`: gradients of type `V` and Hessians of type `M`. -/
class Tangent (α : Type) (V M : outParam Type) where
  /-- The zero gradient over `n` inputs. -/
  zeroGrad : Nat → V
  /-- The gradient of input `i` among `n`: the `i`-th unit vector. -/
  unitGrad : Nat → Nat → V
  /-- The zero Hessian over `n` inputs. -/
  zeroHess : Nat → M
  /-- A gradient scaled by a value, the value on the left. -/
  scaleGrad : α → V → Except Abort V
  /-- A Hessian scaled by a value, the value on the left. -/
  scaleHess : α → M → Except Abort M
  /-- The sum of two gradients. -/
  addGrad : V → V → Except Abort V
  /-- The difference of two gradients. -/
  subGrad : V → V → Except Abort V
  /-- The sum of two Hessians. -/
  addHess : M → M → Except Abort M
  /-- The difference of two Hessians. -/
  subHess : M → M → Except Abort M
  /-- The negation of a gradient. -/
  negGrad : V → Except Abort V
  /-- The negation of a Hessian. -/
  negHess : M → Except Abort M
  /-- The outer product `g ⊗ h` of two gradients. -/
  outer : V → V → Except Abort M
  /-- Whether a gradient has an entry that is not zero. -/
  gradNonzero : V → Bool
  /-- Whether a Hessian has an entry that is not zero. -/
  hessNonzero : M → Bool
  /-- Whether every entry of a gradient is finite. -/
  gradFinite : V → Except Abort Bool
  /-- Whether every entry of a Hessian is finite. -/
  hessFinite : M → Except Abort Bool
  /-- A gradient with its entries read as doubles, as it is returned. -/
  gradReal : V → Except Abort V
  /-- A Hessian with its entries read as doubles, as it is returned. -/
  hessReal : M → Except Abort M

namespace Dense

/-- Multiply every entry of a vector. -/
def scale (s : Float) (v : List Float) : List Float := v.map (s * ·)

/-- Add two vectors entrywise. -/
def plus (u v : List Float) : List Float := List.zipWith (· + ·) u v

/-- Subtract two vectors entrywise. -/
def minus (u v : List Float) : List Float := List.zipWith (· - ·) u v

/-- Multiply every entry of a matrix. -/
def scaleRows (s : Float) (m : List (List Float)) : List (List Float) := m.map (scale s)

/-- Add two matrices entrywise. -/
def plusRows (m n : List (List Float)) : List (List Float) := List.zipWith plus m n

/-- Subtract two matrices entrywise. -/
def minusRows (m n : List (List Float)) : List (List Float) := List.zipWith minus m n

/-- The outer product `g ⊗ h`: entry `(i, j)` is `g i * h j`. -/
def outer (g h : List Float) : List (List Float) := g.map fun gi => h.map (gi * ·)

/-- A zero vector of length `n`. -/
def zeros (n : Nat) : List Float := List.replicate n 0.0

/-- The `i`-th unit vector of length `n`. -/
def unit (n i : Nat) : List Float := (List.range n).map fun k => if k = i then 1.0 else 0.0

/-- Whether a number is nonzero; NaN counts as nonzero. -/
def nonzero (x : Float) : Bool := !(x == 0.0)

end Dense

/-- Dense derivative arrays of doubles: no operation aborts. -/
instance : Tangent Float (List Float) (List (List Float)) where
  zeroGrad n := Dense.zeros n
  unitGrad n i := Dense.unit n i
  zeroHess n := List.replicate n (Dense.zeros n)
  scaleGrad s v := .ok (Dense.scale s v)
  scaleHess s m := .ok (Dense.scaleRows s m)
  addGrad u v := .ok (Dense.plus u v)
  subGrad u v := .ok (Dense.minus u v)
  addHess m n := .ok (Dense.plusRows m n)
  subHess m n := .ok (Dense.minusRows m n)
  negGrad v := .ok (v.map (- ·))
  negHess m := .ok (m.map (·.map (- ·)))
  outer g h := .ok (Dense.outer g h)
  gradNonzero v := v.any Dense.nonzero
  hessNonzero m := m.any (·.any Dense.nonzero)
  gradFinite v := .ok (v.all Float.isFinite)
  hessFinite m := .ok (m.all (·.all Float.isFinite))
  gradReal v := .ok v
  hessReal m := .ok m

end ScalarDiff
