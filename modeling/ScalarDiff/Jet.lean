import ScalarDiff.Machine
import ScalarDiff.Tangent

/-!
# Jets: values with their first and second derivatives

A jet carries a value together with its gradient with respect to every input and, in a
second-order sweep, its Hessian, in the derivative arrays of its type of values
(`ScalarDiff.Tangent`).

Each operation of the machine has a rule. A function of one argument with first and second
derivatives `d1`, `d2` at the operand follows the chain rule

```
grad = d1 · g        hess = d1 · H + d2 · (g ⊗ g)
```

and products follow the product rule with the symmetric term `g ⊗ h + h ⊗ g`. Both leave a
symmetric Hessian symmetric. Powers with a constant exponent (its gradient and Hessian all zero)
use `c·x^(c-1)` and `c·(c-1)·x^(c-2)`; powers with a varying exponent go through
`exp (b · log a)` and need a positive base. The square root has no derivative at zero, and the
absolute value takes the slope `+1` at zero.

The value of a jet is a value of the machine (`ScalarDiff.Scalar`) and is computed exactly as
the machine computes it. The derivatives `d1`, `d2` are computed in the same arithmetic, from
the values the machine's functions give (`ScalarDiff.Jet.reciprocalSlopes` and its siblings). A
product scales each operand's derivatives by the other operand's value. Each rule takes its
steps in a fixed order, and the first step that aborts ends the computation: a sum computes its
Hessian, then its value, then its gradient; a product its gradient, then its Hessian, then its
value; the chain rule its gradient and then its Hessian.

Two of the formulas divide by the square of the operand (the logarithm's second derivative, in
the logarithm and in a varying-exponent power), and the square root's first derivative divides by
the root. When that divisor is an exact zero the division aborts the whole computation.
-/

namespace ScalarDiff

open Scalar Tangent

/-- A value with its gradient and, in a second-order sweep, its Hessian. -/
structure Jet (α V M : Type) where
  value : α
  grad : V
  hess : Option M

namespace Jet

variable {α V M : Type} [Scalar α] [Tangent α V M]

/-- A constant: zero gradient, and a zero Hessian in a second-order sweep. -/
def const (n : Nat) (second : Bool) (c : α) : Jet α V M :=
  ⟨c, zeroGrad (α := α) n, if second then some (zeroHess (α := α) n) else none⟩

/-- Input `i`: its unit gradient, and a zero Hessian in a second-order sweep. -/
def input (n : Nat) (second : Bool) (i : Nat) (v : α) : Jet α V M :=
  ⟨v, unitGrad (α := α) n i, if second then some (zeroHess (α := α) n) else none⟩

/-- Whether a jet is constant: no nonzero gradient entry, and no nonzero Hessian entry. -/
def isConstant (a : Jet α V M) : Bool :=
  !(gradNonzero (α := α) a.grad) &&
    match a.hess with
    | none => true
    | some h => !(hessNonzero (α := α) h)

/-- The chain rule for a function with value `value` and derivatives `d1`, `d2` at `a`. -/
def chain (a : Jet α V M) (value d1 d2 : α) : Except Abort (Jet α V M) := do
  let g ← scaleGrad d1 a.grad
  let h ← match a.hess with
    | none => pure none
    | some h => do
      let s ← scaleHess d1 h
      let o ← outer (α := α) a.grad a.grad
      let t ← scaleHess d2 o
      some <$> addHess (α := α) s t
  pure ⟨value, g, h⟩

/-- Sum of two jets. -/
def add (a b : Jet α V M) : Except Failure (Jet α V M) := do
  let h ← Failure.lift <| match a.hess, b.hess with
    | some h, some k => some <$> addHess (α := α) h k
    | _, _ => pure none
  let v ← Failure.lift (Scalar.add a.value b.value)
  let g ← Failure.lift (addGrad (α := α) a.grad b.grad)
  pure ⟨v, g, h⟩

/-- Difference of two jets. -/
def sub (a b : Jet α V M) : Except Failure (Jet α V M) := do
  let h ← Failure.lift <| match a.hess, b.hess with
    | some h, some k => some <$> subHess (α := α) h k
    | _, _ => pure none
  let v ← Failure.lift (Scalar.sub a.value b.value)
  let g ← Failure.lift (subGrad (α := α) a.grad b.grad)
  pure ⟨v, g, h⟩

/-- Product of two jets: each operand's derivatives are scaled by the other's value, those of
the left operand first, and then the values are multiplied. -/
def mul (a b : Jet α V M) : Except Failure (Jet α V M) := Failure.lift do
  let g ← addGrad (α := α) (← scaleGrad b.value a.grad) (← scaleGrad a.value b.grad)
  let h ← match a.hess, b.hess with
    | some h, some k => do
      let s ← addHess (α := α) (← scaleHess b.value h) (← scaleHess a.value k)
      let o ← addHess (α := α) (← outer (α := α) a.grad b.grad) (← outer (α := α) b.grad a.grad)
      some <$> addHess (α := α) s o
    | _, _ => pure none
  let v ← Scalar.mul a.value b.value
  pure ⟨v, g, h⟩

/-- The derivatives `-r·r` and `2·r·r·r` of the reciprocal at a value whose reciprocal is
`r`. -/
def reciprocalSlopes (r : α) : Except Abort (α × α) := do
  let d1 ← Scalar.mul (← Scalar.neg r) r
  let d2 ← Scalar.mul (← Scalar.mul (← Scalar.mul (ofFloat 2.0) r) r) r
  pure (d1, d2)

/-- Quotient of two jets, as the product with the reciprocal; its value is the plain quotient. -/
def div (a b : Jet α V M) : Except Failure (Jet α V M) :=
  if isZero b.value then Failure.report .divisionByZero
  else do
    let recip ← Failure.lift do
      let r ← Scalar.div (ofFloat 1.0) b.value
      let (d1, d2) ← reciprocalSlopes r
      chain b r d1 d2
    let q ← mul a recip
    let v ← Failure.lift (Scalar.div a.value b.value)
    pure { q with value := v }

/-- Negation of a jet. -/
def neg (a : Jet α V M) : Except Failure (Jet α V M) := Failure.lift do
  let v ← Scalar.neg a.value
  let g ← negGrad (α := α) a.grad
  let h ← match a.hess with
    | none => pure none
    | some h => some <$> negHess (α := α) h
  pure ⟨v, g, h⟩

/-- The derivatives `c·x^(c-1)` and `c·(c-1)·x^(c-2)` of a power with constant exponent `c`,
each zero where its factor `c` or `c·(c-1)` vanishes. -/
def constantPowerSlopes (x c : α) : Except Abort (α × α) := do
  let d1 ← if isZero c then pure (ofFloat 0.0) else do
    let p ← Scalar.pow x (← Scalar.sub c (ofFloat 1.0))
    Scalar.mul c p
  let d2 ← if isZero c || isOne c then pure (ofFloat 0.0) else do
    let m ← Scalar.mul c (← Scalar.sub c (ofFloat 1.0))
    let p ← Scalar.pow x (← Scalar.sub c (ofFloat 2.0))
    Scalar.mul m p
  pure (d1, d2)

/-- The logarithm of a jet's value with its first and second derivatives `1/x` and `-1/x²`. -/
def logSlopes (x : α) : Except Abort (α × α × α) := do
  let l ← Scalar.log x
  let d1 ← Scalar.div (ofFloat 1.0) x
  let d2 ← Scalar.mul x x >>= Scalar.div (ofFloat (-1.0))
  pure (l, d1, d2)

/-- The derivatives `1 + t·t` and `2·t·(1 + t·t)` of the tangent at a value whose tangent is
`t`. -/
def tangentSlopes (t : α) : Except Abort (α × α) := do
  let d1 ← Scalar.add (ofFloat 1.0) (← Scalar.mul t t)
  let d2 ← Scalar.mul (← Scalar.mul (ofFloat 2.0) t) d1
  pure (d1, d2)

/-- The derivatives `0.5/s` and `-0.5·(0.5/s)/x` of the square root at `x`, whose root is
`s`. -/
def rootSlopes (x s : α) : Except Abort (α × α) := do
  let d1 ← Scalar.div (ofFloat 0.5) s
  let d2 ← Scalar.div (← Scalar.mul (ofFloat (-0.5)) d1) x
  pure (d1, d2)

/-- A power of two jets. -/
def pow (a b : Jet α V M) : Except Failure (Jet α V M) := do
  let value ← Failure.lift (Scalar.pow a.value b.value)
  if b.isConstant then
    let (d1, d2) ← Failure.lift (constantPowerSlopes a.value b.value)
    if !(Scalar.isFinite d1) || (a.hess.isSome && !(Scalar.isFinite d2)) then
      Failure.report (.powNonFinite (← Failure.lift (spelled a.value)))
    else Failure.lift (chain a value d1 d2)
  else if ← Failure.lift (atMostZero a.value) then Failure.report .powBaseNotPositive
  else do
    let (l, d1, d2) ← Failure.lift (logSlopes a.value)
    let product ← mul b (← Failure.lift (chain a l d1 d2))
    Failure.lift (chain product value value value)

/-- A unary operation on a jet. -/
def unary (op : UnOp) (a : Jet α V M) : Except Failure (Jet α V M) := do
  let x := a.value
  match op with
  | .neg => neg a
  | .sin => Failure.lift do
    let s ← Scalar.sin x
    let c ← Scalar.cos x
    chain a s c (← Scalar.neg s)
  | .cos => Failure.lift do
    let c ← Scalar.cos x
    let s ← Scalar.sin x
    chain a c (← Scalar.neg s) (← Scalar.neg c)
  | .tan => Failure.lift do
    let t ← Scalar.tan x
    let (d1, d2) ← tangentSlopes t
    chain a t d1 d2
  | .exp => Failure.lift do
    let e ← Scalar.exp x
    chain a e e e
  | .log =>
    if ← Failure.lift (atMostZero x) then
      Failure.report (.logNonPositive (← Failure.lift (spelled x)))
    else Failure.lift do
      let (l, d1, d2) ← logSlopes x
      chain a l d1 d2
  | .sqrt =>
    if ← Failure.lift (belowZero x) then
      Failure.report (.sqrtNegative (← Failure.lift (spelled x)))
    else if isZero x then Failure.report .sqrtAtZero
    else Failure.lift do
      let s ← Scalar.sqrt x
      let (d1, d2) ← rootSlopes x s
      chain a s d1 d2
  | .abs => Failure.lift do
    let v ← Scalar.abs x
    let up ← atLeastZero x
    chain a v (ofFloat (if up then 1.0 else -1.0)) (ofFloat 0.0)

/-- A binary operation on two jets, the left operand first. -/
def binary (op : BinOp) (a b : Jet α V M) : Except Failure (Jet α V M) :=
  match op with
  | .add => add a b
  | .sub => sub a b
  | .mul => mul a b
  | .div => div a b
  | .pow => pow a b

end Jet

end ScalarDiff
