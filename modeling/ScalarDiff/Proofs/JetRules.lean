import ScalarDiff.Proofs.Primal

/-!
# The jet rules in closed form

On doubles with dense derivative arrays no array operation aborts, so each jet rule that cannot
fail on its values is a plain function of its operands: the chain rule, sums, differences,
products and negation each have one closed form here (`Jet.chain_dense`, `Jet.add_dense`, …),
with the Hessian part present exactly when both operands carry one. The rules that can fail
(quotients, powers and the unary operations with domain checks) are described by what they can
produce: a quotient is a product with a reciprocal computed by the chain rule
(`Jet.div_eq_ok`), a power is a chain rule, or a chain rule applied to a product with a
logarithm (`Jet.pow_eq_ok`), and every unary operation is a negation or a chain rule
(`Jet.unary_eq_ok`). Properties of the sweep are then proved rule by rule from these forms.
-/

namespace ScalarDiff

theorem Failure.lift_eq_ok {β : Type} {m : Except Abort β} {x : β} :
    Failure.lift m = .ok x ↔ m = .ok x := by
  cases m <;> simp

@[simp]
theorem Tangent.gradReal_float (v : List Float) : Tangent.gradReal Float v = .ok v := rfl

@[simp]
theorem Tangent.hessReal_float (m : List (List Float)) : Tangent.hessReal Float m = .ok m := rfl

@[simp]
theorem Tangent.hessFinite_float (m : List (List Float)) :
    Tangent.hessFinite Float m = .ok (m.all (·.all Float.isFinite)) := rfl

namespace Jet

/-! ## The rules on dense arrays -/

section Dense

variable (a b : DenseJet)

/-- The chain rule: the gradient scaled by `d1`, the Hessian by `d1` plus `d2 · (g ⊗ g)`. -/
theorem chain_dense (v d1 d2 : Float) :
    Jet.chain a v d1 d2 = .ok ⟨v, Dense.scale d1 a.grad, a.hess.map fun h =>
      Dense.plusRows (Dense.scaleRows d1 h) (Dense.scaleRows d2 (Dense.outer a.grad a.grad))⟩ := by
  rcases a with ⟨u, g, _ | h⟩ <;> rfl

theorem add_dense :
    Jet.add a b = .ok ⟨a.value + b.value, Dense.plus a.grad b.grad,
      a.hess.bind fun h => b.hess.map (Dense.plusRows h)⟩ := by
  rcases a with ⟨u, g, _ | h⟩ <;> rcases b with ⟨w, k, _ | m⟩ <;> rfl

theorem sub_dense :
    Jet.sub a b = .ok ⟨a.value - b.value, Dense.minus a.grad b.grad,
      a.hess.bind fun h => b.hess.map (Dense.minusRows h)⟩ := by
  rcases a with ⟨u, g, _ | h⟩ <;> rcases b with ⟨w, k, _ | m⟩ <;> rfl

/-- The product rule, with the symmetric cross term `g ⊗ k + k ⊗ g`. -/
theorem mul_dense :
    Jet.mul a b = .ok ⟨a.value * b.value,
      Dense.plus (Dense.scale b.value a.grad) (Dense.scale a.value b.grad),
      a.hess.bind fun h => b.hess.map fun m =>
        Dense.plusRows (Dense.plusRows (Dense.scaleRows b.value h) (Dense.scaleRows a.value m))
          (Dense.plusRows (Dense.outer a.grad b.grad) (Dense.outer b.grad a.grad))⟩ := by
  rcases a with ⟨u, g, _ | h⟩ <;> rcases b with ⟨w, k, _ | m⟩ <;> rfl

theorem neg_dense :
    Jet.neg a = .ok ⟨-a.value, a.grad.map (- ·), a.hess.map (·.map (·.map (- ·)))⟩ := by
  rcases a with ⟨u, g, _ | h⟩ <;> rfl

end Dense

/-! ## What the rules that can fail produce

These hold for every type of values and arrays: they only say which simpler rules a result is
built from.
-/

section Shapes

variable {α V M : Type} [Scalar α] [Tangent α V M] {a b J : Jet α V M}

/-- A quotient is the product with the reciprocal of the divisor, carrying the plain quotient
as its value. -/
theorem div_eq_ok (h : Jet.div a b = .ok J) :
    ∃ r d1 d2 R Q v, Jet.chain b r d1 d2 = .ok R ∧ Jet.mul a R = .ok Q ∧
      J = { Q with value := v } := by
  unfold Jet.div at h
  split at h
  · cases h
  · obtain ⟨R, hR, h⟩ := bind_eq_ok.1 h
    obtain ⟨r, -, hR⟩ := bind_eq_ok.1 (Failure.lift_eq_ok.1 hR)
    obtain ⟨⟨d1, d2⟩, -, hR⟩ := bind_eq_ok.1 hR
    obtain ⟨Q, hQ, h⟩ := bind_eq_ok.1 h
    obtain ⟨v, -, h⟩ := bind_eq_ok.1 h
    cases h
    exact ⟨r, d1, d2, R, Q, v, hR, hQ, rfl⟩

/-- A power is the chain rule at the base (constant exponent), or the chain rule applied to the
product of the exponent with the logarithm of the base (varying exponent). -/
theorem pow_eq_ok (h : Jet.pow a b = .ok J) :
    (∃ v d1 d2, Jet.chain a v d1 d2 = .ok J) ∨
      ∃ l d1 d2 L P v, Jet.chain a l d1 d2 = .ok L ∧ Jet.mul b L = .ok P ∧
        Jet.chain P v v v = .ok J := by
  unfold Jet.pow at h
  obtain ⟨value, -, h⟩ := bind_eq_ok.1 h
  split at h
  · obtain ⟨⟨d1, d2⟩, -, h⟩ := bind_eq_ok.1 h
    dsimp only at h
    split at h
    · obtain ⟨s, -, h⟩ := bind_eq_ok.1 h
      cases h
    · exact .inl ⟨_, d1, d2, Failure.lift_eq_ok.1 h⟩
  · obtain ⟨nonpositive, -, h⟩ := bind_eq_ok.1 h
    split at h
    · cases h
    · obtain ⟨⟨l, d1, d2⟩, -, h⟩ := bind_eq_ok.1 h
      dsimp only at h
      obtain ⟨L, hL, h⟩ := bind_eq_ok.1 h
      obtain ⟨P, hP, h⟩ := bind_eq_ok.1 h
      exact .inr ⟨_, d1, d2, L, P, _, Failure.lift_eq_ok.1 hL, hP, Failure.lift_eq_ok.1 h⟩

/-- Every unary operation is a negation or a chain rule. -/
theorem unary_eq_ok {op : UnOp} (h : Jet.unary op a = .ok J) :
    Jet.neg a = .ok J ∨ ∃ v d1 d2, Jet.chain a v d1 d2 = .ok J := by
  cases op with
  | neg => exact .inl h
  | sin =>
    simp only [Jet.unary, bind_eq_ok, Failure.lift_eq_ok] at h
    obtain ⟨_, -, _, -, _, -, h⟩ := h
    exact .inr ⟨_, _, _, h⟩
  | cos =>
    simp only [Jet.unary, bind_eq_ok, Failure.lift_eq_ok] at h
    obtain ⟨_, -, _, -, _, -, _, -, h⟩ := h
    exact .inr ⟨_, _, _, h⟩
  | tan | abs =>
    simp only [Jet.unary, bind_eq_ok, Failure.lift_eq_ok] at h
    obtain ⟨_, -, _, -, h⟩ := h
    exact .inr ⟨_, _, _, h⟩
  | exp =>
    simp only [Jet.unary, bind_eq_ok, Failure.lift_eq_ok] at h
    obtain ⟨_, -, h⟩ := h
    exact .inr ⟨_, _, _, h⟩
  | log =>
    simp only [Jet.unary, bind_eq_ok, Failure.lift_eq_ok] at h
    obtain ⟨_, -, h⟩ := h
    split at h
    · obtain ⟨_, -, h⟩ := bind_eq_ok.1 h
      cases h
    · obtain ⟨_, -, h⟩ := bind_eq_ok.1 (Failure.lift_eq_ok.1 h)
      exact .inr ⟨_, _, _, h⟩
  | sqrt =>
    simp only [Jet.unary, bind_eq_ok, Failure.lift_eq_ok] at h
    obtain ⟨_, -, h⟩ := h
    split at h
    · obtain ⟨_, -, h⟩ := bind_eq_ok.1 h
      cases h
    · split at h
      · cases h
      · obtain ⟨_, -, h⟩ := bind_eq_ok.1 (Failure.lift_eq_ok.1 h)
        obtain ⟨_, -, h⟩ := bind_eq_ok.1 h
        exact .inr ⟨_, _, _, h⟩

end Shapes

end Jet

end ScalarDiff
