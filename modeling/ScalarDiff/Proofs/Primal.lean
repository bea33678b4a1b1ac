import ScalarDiff.Proofs.Outcome

/-!
# The forward sweep runs the machine on its values

A forward sweep carries a jet in every stack slot where the machine carries a value. On doubles,
with dense derivative arrays, the sweep is a conservative extension of the machine: at every
step the values of the jets are the machine's stack, bit for bit, and the sweep fails exactly
where the machine does, with the same failure, except where it stops earlier on a failure of its
own (`ScalarDiff.Failure.IsSweepOnly`): the square root at zero, a power whose derivative is not
finite, a varying exponent on a base that is not positive, and a quotient by zero inside the
logarithm's second derivative.

The comparison of one step is `ScalarDiff.Tracks`. Every jet rule tracks the machine's operation
on the jets' values (`binary_tracks`, `unary_tracks`), so one instruction tracks the machine's
step (`step_tracks`), and by induction over the instructions a whole sweep tracks the whole run
(`sweep_tracks_run`). The main statement is `jet_extends_execute`.
-/

namespace ScalarDiff

/-- Jets of doubles with dense derivative arrays. -/
abbrev DenseJet := Jet Float (List Float) (List (List Float))

/-- The failures a sweep has beside the machine's: the square root at zero, a power whose
derivative is not finite, a varying exponent on a base that is not positive, and a quotient by
an exact zero inside a derivative formula. -/
def Failure.IsSweepOnly : Failure → Prop
  | .reported .sqrtAtZero => True
  | .reported (.powNonFinite _) => True
  | .reported .powBaseNotPositive => True
  | .aborted .zeroDivision => True
  | _ => False

/-- How the sweep's outcome of a step relates to the machine's: results related by `R`, the same
failure, or a failure of the sweep's own where the machine goes on. -/
inductive Tracks {β γ : Type} (R : β → γ → Prop) : Except Failure β → Except Failure γ → Prop
  | both {b : β} {c : γ} : R b c → Tracks R (.ok b) (.ok c)
  | same (f : Failure) : Tracks R (.error f) (.error f)
  | own {b : β} {f : Failure} : f.IsSweepOnly → Tracks R (.ok b) (.error f)

theorem Tracks.map {β γ β' γ' : Type} {R : β → γ → Prop} {S : β' → γ' → Prop}
    {f : β → β'} {g : γ → γ'} {x : Except Failure β} {y : Except Failure γ} (h : Tracks R x y)
    (hfg : ∀ b c, R b c → S (f b) (g c)) : Tracks S (f <$> x) (g <$> y) := by
  cases h with
  | both hbc => exact .both (hfg _ _ hbc)
  | same f => exact .same f
  | own hf => exact .own hf

/-! ## The jet rules on doubles -/

@[simp]
theorem Scalar.ofFloat_float (y : Float) : Scalar.ofFloat y = y := rfl

@[simp]
theorem Scalar.toFloat_float (y : Float) : Scalar.toFloat y = .ok y := rfl

theorem Scalar.div_float {y z : Float} (hz : Scalar.isZero z = false) :
    Scalar.div y z = .ok (y / z) := by
  have hz' : (z == 0.0) = false := hz
  simp [Scalar.div, hz']

@[simp]
theorem Jet.reciprocalSlopes_float (r : Float) :
    Jet.reciprocalSlopes r = .ok (-r * r, 2.0 * r * r * r) := rfl

@[simp]
theorem Jet.tangentSlopes_float (t : Float) :
    Jet.tangentSlopes t = .ok (1.0 + t * t, 2.0 * t * (1.0 + t * t)) := rfl

/-- The slopes of the square root divide by the root and by the operand, and abort only where
one of them is an exact zero. -/
theorem Jet.rootSlopes_float {x s : Float} (hs : Scalar.isZero s = false)
    (hx : Scalar.isZero x = false) : Jet.rootSlopes x s = .ok (0.5 / s, -0.5 * (0.5 / s) / x) := by
  simp [Jet.rootSlopes, Scalar.div_float hs, Scalar.div_float hx, Scalar.mul]

theorem Jet.rootSlopes_of_zero_root (x : Float) {s : Float} (hs : Scalar.isZero s = true) :
    Jet.rootSlopes x s = .error .zeroDivision := by
  have hs' : (s == 0.0) = true := hs
  simp [Jet.rootSlopes, Scalar.div, hs']

section Rules

variable (a b : DenseJet)

theorem chain_ok (v d1 d2 : Float) : ∃ J, Jet.chain a v d1 d2 = .ok J ∧ J.value = v := by
  unfold Jet.chain
  cases a.hess <;> simp [Tangent.scaleGrad, Tangent.scaleHess, Tangent.outer, Tangent.addHess]

theorem add_ok : ∃ J, Jet.add a b = .ok J ∧ J.value = a.value + b.value := by
  unfold Jet.add
  cases a.hess <;> cases b.hess <;> simp [Tangent.addHess, Tangent.addGrad, Scalar.add]

theorem sub_ok : ∃ J, Jet.sub a b = .ok J ∧ J.value = a.value - b.value := by
  unfold Jet.sub
  cases a.hess <;> cases b.hess <;> simp [Tangent.subHess, Tangent.subGrad, Scalar.sub]

theorem mul_ok : ∃ J, Jet.mul a b = .ok J ∧ J.value = a.value * b.value := by
  unfold Jet.mul
  cases a.hess <;> cases b.hess <;>
    simp [Tangent.addHess, Tangent.addGrad, Tangent.scaleGrad, Tangent.scaleHess, Tangent.outer,
      Scalar.mul]

theorem neg_ok : ∃ J, Jet.neg a = .ok J ∧ J.value = -a.value := by
  unfold Jet.neg
  cases a.hess <;> simp [Tangent.negHess, Tangent.negGrad, Scalar.neg]

theorem div_ok (hb : Scalar.isZero b.value = false) :
    ∃ J, Jet.div a b = .ok J ∧ J.value = a.value / b.value := by
  have hb' : (b.value == 0.0) = false := hb
  obtain ⟨R, hR, -⟩ := chain_ok b (1.0 / b.value) (-(1.0 / b.value) * (1.0 / b.value))
    (2.0 * (1.0 / b.value) * (1.0 / b.value) * (1.0 / b.value))
  obtain ⟨Q, hQ, -⟩ := mul_ok a R
  refine ⟨{ Q with value := a.value / b.value }, ?_, rfl⟩
  simp [Jet.div, hb, Scalar.div, hb', hR, hQ]

/-- The quotient by zero in the logarithm's second derivative is the only way its slopes fail. -/
theorem logSlopes_ok_or (y : Float) :
    (∃ t, Jet.logSlopes y = .ok t ∧ t.1 = Float.log y) ∨
      Jet.logSlopes y = .error .zeroDivision := by
  unfold Jet.logSlopes
  by_cases h1 : (y == 0.0) = true <;> by_cases h2 : (y * y == 0.0) = true <;>
    simp [Scalar.log, Scalar.div, Scalar.mul, h1, h2]

theorem constantPowerSlopes_ok (y c : Float) : ∃ d, Jet.constantPowerSlopes y c = .ok d := by
  unfold Jet.constantPowerSlopes
  simp only [Scalar.pow, Scalar.sub, Scalar.mul, Scalar.ofFloat_float, ok_bind]
  split <;> split <;> exact ⟨_, rfl⟩

theorem pow_tracks :
    Tracks (fun v (J : DenseJet) => J.value = v) (.ok (Float.pow a.value b.value))
      (Jet.pow a b) := by
  unfold Jet.pow
  simp only [Scalar.pow, Failure.lift_ok, ok_bind]
  split
  · obtain ⟨⟨d1, d2⟩, hd⟩ := constantPowerSlopes_ok a.value b.value
    simp only [hd, Failure.lift_ok, ok_bind]
    split
    · exact .own trivial
    · obtain ⟨J, hJ, hv⟩ := chain_ok a (Float.pow a.value b.value) d1 d2
      rw [hJ]
      exact .both hv
  · simp only [Scalar.atMostZero, Failure.lift_ok, ok_bind]
    split
    · exact .own trivial
    · rcases logSlopes_ok_or a.value with ⟨⟨l, d1, d2⟩, hl, -⟩ | hl
      · obtain ⟨C, hC, -⟩ := chain_ok a l d1 d2
        obtain ⟨P, hP, -⟩ := mul_ok b C
        obtain ⟨J, hJ, hv⟩ := chain_ok P (Float.pow a.value b.value) (Float.pow a.value b.value)
          (Float.pow a.value b.value)
        simp only [hl, hC, hP, hJ, Failure.lift_ok, ok_bind]
        exact .both hv
      · simp only [hl, Failure.lift_error, error_bind]
        exact .own trivial

/-- Every binary jet rule tracks the machine's operation on the operands' values. -/
theorem binary_tracks (op : BinOp) :
    Tracks (fun v (J : DenseJet) => J.value = v) (op.apply a.value b.value)
      (Jet.binary op a b) := by
  cases op with
  | add =>
    obtain ⟨J, hJ, hv⟩ := add_ok a b
    rw [Jet.binary, hJ]
    exact .both hv
  | sub =>
    obtain ⟨J, hJ, hv⟩ := sub_ok a b
    rw [Jet.binary, hJ]
    exact .both hv
  | mul =>
    obtain ⟨J, hJ, hv⟩ := mul_ok a b
    rw [Jet.binary, hJ]
    exact .both hv
  | div =>
    cases hb : Scalar.isZero b.value with
    | false =>
      obtain ⟨J, hJ, hv⟩ := div_ok a b hb
      rw [Jet.binary, hJ, BinOp.apply, if_neg (by simp [hb]), Scalar.div_float hb]
      exact .both hv
    | true =>
      rw [Jet.binary, Jet.div, if_pos hb, BinOp.apply, if_pos hb]
      exact .same _
  | pow => exact pow_tracks a b

/-- Every unary jet rule tracks the machine's operation on the operand's value. -/
theorem unary_tracks (op : UnOp) :
    Tracks (fun v (J : DenseJet) => J.value = v) (op.apply a.value) (Jet.unary op a) := by
  cases op with
  | neg =>
    obtain ⟨J, hJ, hv⟩ := neg_ok a
    rw [Jet.unary]
    simp only [hJ]
    exact .both hv
  | sin =>
    obtain ⟨J, hJ, hv⟩ := chain_ok a (Float.sin a.value) (Float.cos a.value) (-Float.sin a.value)
    simp only [Jet.unary, Scalar.sin, Scalar.cos, Scalar.neg, ok_bind, Failure.lift_ok, hJ]
    exact .both hv
  | cos =>
    obtain ⟨J, hJ, hv⟩ := chain_ok a (Float.cos a.value) (-Float.sin a.value) (-Float.cos a.value)
    simp only [Jet.unary, Scalar.sin, Scalar.cos, Scalar.neg, ok_bind, Failure.lift_ok, hJ]
    exact .both hv
  | tan =>
    obtain ⟨J, hJ, hv⟩ := chain_ok a (Float.tan a.value)
      (1.0 + Float.tan a.value * Float.tan a.value)
      (2.0 * Float.tan a.value * (1.0 + Float.tan a.value * Float.tan a.value))
    simp only [Jet.unary, Scalar.tan, Jet.tangentSlopes_float, ok_bind, Failure.lift_ok, hJ]
    exact .both hv
  | exp =>
    obtain ⟨J, hJ, hv⟩ := chain_ok a (Float.exp a.value) (Float.exp a.value) (Float.exp a.value)
    simp only [Jet.unary, Scalar.exp, ok_bind, Failure.lift_ok, hJ]
    exact .both hv
  | log =>
    by_cases h : a.value ≤ 0.0
    · simp only [Jet.unary, UnOp.apply, Scalar.atMostZero, Scalar.spelled, h, decide_true,
        Failure.lift_ok, ok_bind, if_true]
      exact .same _
    · rcases logSlopes_ok_or a.value with ⟨⟨l, d1, d2⟩, hl, hl1⟩ | hl
      · obtain ⟨J, hJ, hv⟩ := chain_ok a l d1 d2
        simp only [Jet.unary, UnOp.apply, Scalar.atMostZero, Scalar.log, h, decide_false,
          Failure.lift_ok, ok_bind, hl, hJ]
        exact .both (hv.trans hl1)
      · simp only [Jet.unary, UnOp.apply, Scalar.atMostZero, Scalar.log, h, decide_false,
          Failure.lift_ok, Failure.lift_error, ok_bind, error_bind, hl]
        exact .own trivial
  | sqrt =>
    by_cases h : a.value < 0.0
    · simp only [Jet.unary, UnOp.apply, Scalar.belowZero, Scalar.spelled, h, decide_true,
        Failure.lift_ok, ok_bind, if_true]
      exact .same _
    · cases hz : Scalar.isZero a.value with
      | true =>
        simp only [Jet.unary, UnOp.apply, Scalar.belowZero, Scalar.sqrt, h, hz, decide_false,
          Failure.lift_ok, ok_bind]
        exact .own trivial
      | false =>
        -- the first slope divides by the root, which only an exact zero root makes abort
        cases hs : Scalar.isZero (Float.sqrt a.value) with
        | true =>
          simp only [Jet.unary, UnOp.apply, Scalar.belowZero, Scalar.sqrt, h, hz, decide_false,
            Bool.false_eq_true, if_false, Failure.lift_ok, ok_bind,
            Jet.rootSlopes_of_zero_root a.value hs, error_bind, Failure.lift_error]
          exact .own trivial
        | false =>
          obtain ⟨J, hJ, hv⟩ := chain_ok a (Float.sqrt a.value) (0.5 / Float.sqrt a.value)
            (-0.5 * (0.5 / Float.sqrt a.value) / a.value)
          simp only [Jet.unary, UnOp.apply, Scalar.belowZero, Scalar.sqrt, h, hz, decide_false,
            Bool.false_eq_true, if_false, Failure.lift_ok, ok_bind, Jet.rootSlopes_float hs hz, hJ]
          exact .both hv
  | abs =>
    obtain ⟨J, hJ, hv⟩ := chain_ok a (Float.abs a.value)
      (if decide (a.value ≥ 0.0) = true then 1.0 else -1.0) 0.0
    simp only [Jet.unary, UnOp.apply, Scalar.abs, Scalar.atLeastZero, Scalar.ofFloat_float,
      ok_bind, Failure.lift_ok, hJ]
    exact .both hv

end Rules

/-! ## What a sweep can abort with

On doubles the machine never aborts: its only partial operation, the quotient, is guarded by its
own check for a zero divisor. So a sweep aborts only on a failure of its own, a quotient by an
exact zero inside a derivative formula, and there are three such places
(`Instr.ZeroQuotientAt`): the logarithm's second derivative `-1/(y·y)`, met in `LOG` and in a
power with a varying exponent, where `y` passed the check that it is not at most zero but `y·y`
rounds to zero; and the square root's first derivative `0.5/s` where the root `s` is zero though
the operand is not. The last cannot happen in IEEE arithmetic, where the root of a nonzero double
is never zero; the statements keep it since they are about the rules as written.
-/

theorem BinOp.apply_float_ne_aborted (o : BinOp) (u v : Float) (c : Abort) :
    o.apply u v ≠ .error (.aborted c) := by
  cases o with
  | div =>
    cases hv : Scalar.isZero v with
    | true => simp [BinOp.apply, hv, Failure.report]
    | false => simp [BinOp.apply, hv, Scalar.div_float hv]
  | _ => simp [BinOp.apply, Scalar.add, Scalar.sub, Scalar.mul, Scalar.pow]

theorem UnOp.apply_float_ne_aborted (o : UnOp) (u : Float) (c : Abort) :
    o.apply u ≠ .error (.aborted c) := by
  cases o with
  | log =>
    by_cases h : u ≤ 0.0 <;>
      simp [UnOp.apply, Scalar.atMostZero, Scalar.spelled, Scalar.log, Failure.report, h]
  | sqrt =>
    by_cases h : u < 0.0 <;>
      simp [UnOp.apply, Scalar.belowZero, Scalar.spelled, Scalar.sqrt, Failure.report, h]
  | _ =>
    simp [UnOp.apply, Scalar.neg, Scalar.sin, Scalar.cos, Scalar.tan, Scalar.exp, Scalar.abs]

theorem Machine.step_float_ne_aborted (x vs : List Float) (i : Instr Float) (c : Abort) :
    Machine.step x vs i ≠ .error (.aborted c) := by
  cases i with
  | load j =>
    simp only [Machine.step]
    split <;> simp [Failure.report]
  | binary op =>
    simp only [Machine.step]
    split
    · simpa using BinOp.apply_float_ne_aborted op _ _ c
    · simp [Failure.report]
  | unary op =>
    simp only [Machine.step]
    split
    · simpa using UnOp.apply_float_ne_aborted op _ c
    · simp [Failure.report]
  | push _ => simp [Machine.step]
  | ret => simp [Machine.step]

/-- A double that passed the check that it is not at most zero, and whose square rounds to
zero. -/
def SquareUnderflows (y : Float) : Prop := ¬ y ≤ 0.0 ∧ (y * y == 0.0) = true

/-- Where a unary jet rule on doubles divides by an exact zero: in the logarithm's second
derivative, at a value whose square underflows; in the square root's first derivative, at a value
neither negative nor zero whose root is zero. -/
def UnOp.ZeroQuotientAt : UnOp → Float → Prop
  | .log, y => SquareUnderflows y
  | .sqrt, y => ¬ y < 0.0 ∧ (y == 0.0) = false ∧ (Float.sqrt y == 0.0) = true
  | _, _ => False

/-- Where a binary jet rule on doubles divides by an exact zero: a power with a varying exponent
takes the logarithm of its base, whose square underflows. -/
def BinOp.ZeroQuotientAt : BinOp → DenseJet → DenseJet → Prop
  | .pow, a, b => b.isConstant = false ∧ SquareUnderflows a.value
  | _, _, _ => False

/-- Where an instruction on a stack of jets, the top first, divides by an exact zero. -/
def Instr.ZeroQuotientAt : Instr Float → List DenseJet → Prop
  | .unary op, a :: _ => op.ZeroQuotientAt a.value
  | .binary op, b :: a :: _ => op.ZeroQuotientAt a b
  | _, _ => False

/-- A double equal to another is at most it. -/
theorem Float.le_of_beq {y z : Float} (h : (y == z) = true) : y ≤ z := by
  -- both compare the unpacked values: equal ones compare as `eq`, which is at most
  have hu : ∀ a b : Float.Model.UnpackedFloat, a.beq b = true → a.le b = true := by
    intro a b hab
    change (a.compare b == some .eq) = true at hab
    change (a.compare b).any (·.isLE) = true
    rw [beq_iff_eq.1 hab]
    rfl
  exact decide_eq_true (hu _ _ h)

section Aborts

variable (a b : DenseJet)

theorem chain_ne_error (v d1 d2 : Float) (c : Abort) : Jet.chain a v d1 d2 ≠ .error c := by
  obtain ⟨J, hJ, -⟩ := chain_ok a v d1 d2
  simp [hJ]

/-- Past the logarithm's check, its slopes abort only on the square of the operand: the operand
itself is not zero, since it is not at most zero. -/
theorem logSlopes_aborted {y : Float} {c : Abort} (hy : ¬ y ≤ 0.0)
    (h : Jet.logSlopes y = .error c) : c = .zeroDivision ∧ SquareUnderflows y := by
  have hz : (y == 0.0) = false := by
    cases hb : (y == 0.0)
    · rfl
    · exact absurd (Float.le_of_beq hb) hy
  by_cases h2 : (y * y == 0.0) = true
  · simp [Jet.logSlopes, Scalar.log, Scalar.div, Scalar.mul, hz, h2] at h
    exact ⟨h.symm, hy, h2⟩
  · simp [Jet.logSlopes, Scalar.log, Scalar.div, Scalar.mul, hz, h2] at h

/-- A unary jet rule on doubles aborts only on a quotient by zero, where
`UnOp.ZeroQuotientAt` says. -/
theorem unary_aborted {op : UnOp} {c : Abort} (h : Jet.unary op a = .error (.aborted c)) :
    c = .zeroDivision ∧ op.ZeroQuotientAt a.value := by
  cases op with
  | log =>
    by_cases hle : a.value ≤ 0.0
    · simp [Jet.unary, Scalar.atMostZero, Scalar.spelled, hle, Failure.report] at h
    · simp only [Jet.unary, Scalar.atMostZero, hle, decide_false, Failure.lift_ok, ok_bind,
        Bool.false_eq_true, if_false, Failure.lift_eq_aborted] at h
      rcases bind_eq_error.1 h with hl | ⟨⟨l, d1, d2⟩, -, hc⟩
      · exact logSlopes_aborted hle hl
      · exact absurd hc (chain_ne_error a l d1 d2 c)
  | sqrt =>
    by_cases hlt : a.value < 0.0
    · simp [Jet.unary, Scalar.belowZero, Scalar.spelled, hlt, Failure.report] at h
    · cases hz : Scalar.isZero a.value with
      | true => simp [Jet.unary, Scalar.belowZero, hlt, hz, Failure.report] at h
      | false =>
        -- past both checks only the first slope can divide by zero, by a zero root
        cases hs : Scalar.isZero (Float.sqrt a.value) with
        | true =>
          simp [Jet.unary, Scalar.belowZero, Scalar.sqrt, hlt, hz,
            Jet.rootSlopes_of_zero_root a.value hs] at h
          exact ⟨h.symm, hlt, hz, hs⟩
        | false =>
          simp [Jet.unary, Scalar.belowZero, Scalar.sqrt, hlt, hz, Jet.rootSlopes_float hs hz,
            Failure.lift_eq_aborted, chain_ne_error] at h
  | neg =>
    obtain ⟨J, hJ, -⟩ := neg_ok a
    simp [Jet.unary, hJ] at h
  | _ =>
    simp [Jet.unary, Scalar.sin, Scalar.cos, Scalar.tan, Scalar.exp, Scalar.abs,
      Scalar.atLeastZero, Scalar.neg, Failure.lift_eq_aborted, chain_ne_error] at h

/-- A power of jets on doubles aborts only on a quotient by zero, in the logarithm's second
derivative at a base whose square underflows under a varying exponent. -/
theorem pow_aborted {c : Abort} (h : Jet.pow a b = .error (.aborted c)) :
    c = .zeroDivision ∧ b.isConstant = false ∧ SquareUnderflows a.value := by
  unfold Jet.pow at h
  simp only [Scalar.pow, Failure.lift_ok, ok_bind] at h
  split at h
  · -- under a constant exponent the slopes and the chain rule never divide
    obtain ⟨⟨d1, d2⟩, hd⟩ := constantPowerSlopes_ok a.value b.value
    simp only [hd, Failure.lift_ok, ok_bind] at h
    split at h
    · simp [Scalar.spelled, Failure.report] at h
    · exact absurd (Failure.lift_eq_aborted.1 h) (chain_ne_error a _ d1 d2 c)
  · rename_i hb
    simp only [Scalar.atMostZero, Failure.lift_ok, ok_bind] at h
    split at h
    · simp [Failure.report] at h
    · rename_i hle
      rcases bind_eq_error.1 h with hl | ⟨⟨l, d1, d2⟩, -, h⟩
      · obtain ⟨hc, hsq⟩ := logSlopes_aborted (by simpa using hle) (Failure.lift_eq_aborted.1 hl)
        exact ⟨hc, by simpa using hb, hsq⟩
      · obtain ⟨C, hC, -⟩ := chain_ok a l d1 d2
        obtain ⟨P, hP, -⟩ := mul_ok b C
        simp [hC, hP, Failure.lift_eq_aborted, chain_ne_error] at h

/-- A binary jet rule on doubles aborts only on a quotient by zero, where
`BinOp.ZeroQuotientAt` says. -/
theorem binary_aborted {op : BinOp} {c : Abort} (h : Jet.binary op a b = .error (.aborted c)) :
    c = .zeroDivision ∧ op.ZeroQuotientAt a b := by
  cases op with
  | add =>
    obtain ⟨J, hJ, -⟩ := add_ok a b
    simp [Jet.binary, hJ] at h
  | sub =>
    obtain ⟨J, hJ, -⟩ := sub_ok a b
    simp [Jet.binary, hJ] at h
  | mul =>
    obtain ⟨J, hJ, -⟩ := mul_ok a b
    simp [Jet.binary, hJ] at h
  | div =>
    cases hb : Scalar.isZero b.value with
    | false =>
      obtain ⟨J, hJ, -⟩ := div_ok a b hb
      simp [Jet.binary, hJ] at h
    | true => simp [Jet.binary, Jet.div, hb, Failure.report] at h
  | pow => exact pow_aborted a b h

end Aborts

/-! ## One instruction, and a whole run -/

section Run

variable (n : Nat) (second : Bool) (x : List Float)

/-- One instruction on a stack of jets tracks the machine's step on the jets' values. -/
theorem step_tracks {vs : List Float} {js : List DenseJet} (h : js.map (·.value) = vs)
    (i : Instr Float) :
    Tracks (fun vs' (js' : List DenseJet) => js'.map (·.value) = vs') (Machine.step x vs i)
      (Jet.step n second x js i) := by
  subst h
  cases i with
  | push c => exact .both rfl
  | load i =>
    simp only [Machine.step, Jet.step]
    cases inputAt? x i with
    | some v => exact .both rfl
    | none => exact .same _
  | binary op =>
    -- a binary operator needs two operands; on a shorter stack both fail alike
    rcases js with _ | ⟨jb, _ | ⟨ja, rest⟩⟩
    · exact .same _
    · exact .same _
    · simp only [Machine.step, Jet.step, List.map_cons]
      exact (binary_tracks ja jb op).map fun v J hv => by simp [hv]
  | unary op =>
    rcases js with _ | ⟨ja, rest⟩
    · exact .same _
    · simp only [Machine.step, Jet.step, List.map_cons]
      exact (unary_tracks ja op).map fun v J hv => by simp [hv]
  | ret => exact .both rfl

/-- Where both complete a run of steps, the jets' values are the machine's stack. -/
theorem foldlM_step_values {pre : List (Instr Float)} {vs vs' : List Float}
    {js js' : List DenseJet} (h : js.map (·.value) = vs)
    (hv : pre.foldlM (Machine.step x) vs = .ok vs')
    (hj : pre.foldlM (Jet.step n second x) js = .ok js') : js'.map (·.value) = vs' := by
  induction pre generalizing vs js with
  | nil =>
    cases hv
    cases hj
    exact h
  | cons i rest ih =>
    rw [List.foldlM_cons] at hv hj
    obtain ⟨vs1, hvs1, hv⟩ := bind_eq_ok.1 hv
    obtain ⟨js1, hjs1, hj⟩ := bind_eq_ok.1 hj
    have htr := step_tracks n second x h i
    rw [hvs1, hjs1] at htr
    cases htr with
    | both hrel => exact ih hrel hv hj

/-- The sweep stops at instruction `i` on a failure `f` of its own: the instructions `pre` before
it hold no `RETURN`, the sweep runs them and then fails at `i` with `f`, and the machine runs
`pre` and `i` without failing. -/
def SweepStopsAt (vs : List Float) (js : List DenseJet) (pre : List (Instr Float))
    (i : Instr Float) (f : Failure) : Prop :=
  (∀ j ∈ pre, j ≠ .ret) ∧ f.IsSweepOnly ∧
    (∃ vs', (pre ++ [i]).foldlM (Machine.step x) vs = .ok vs') ∧
    ∃ js', pre.foldlM (Jet.step n second x) js = .ok js' ∧ Jet.step n second x js' i = .error f

/-- A sweep stopping at an instruction stops there also after one more instruction before it,
run in step with the machine. -/
theorem SweepStopsAt.cons {vs vs1 : List Float} {js js1 : List DenseJet} {j : Instr Float}
    {pre : List (Instr Float)} {i : Instr Float} {f : Failure} (hj : j ≠ .ret)
    (hvs : Machine.step x vs j = .ok vs1) (hjs : Jet.step n second x js j = .ok js1)
    (h : SweepStopsAt n second x vs1 js1 pre i f) :
      SweepStopsAt n second x vs js (j :: pre) i f := by
  obtain ⟨hpre, hf, ⟨vs', hv⟩, js', hjs', hi⟩ := h
  refine ⟨?_, hf, ⟨vs', ?_⟩, js', ?_, hi⟩
  · intro k hk
    rcases List.mem_cons.1 hk with rfl | hk
    · exact hj
    · exact hpre k hk
  · rw [List.cons_append, List.foldlM_cons, hvs, ok_bind, hv]
  · rw [List.foldlM_cons, hjs, ok_bind, hjs']

/-- A whole sweep tracks the machine's run from stacks that agree: a jet it returns carries the
machine's result, and a failure the machine reports is the sweep's failure too, unless the sweep
stopped before on a failure of its own. -/
theorem sweep_tracks_run (code : List (Instr Float)) {vs : List Float} {js : List DenseJet}
    (h : js.map (·.value) = vs) :
    (∀ J, Jet.sweep n second x code js = .ok J → Machine.run x code vs = .ok J.value) ∧
    (∀ e, Machine.run x code vs = .error (.reported e) →
      Jet.sweep n second x code js = .error (.reported e) ∨
      ∃ pre i post f, code = pre ++ i :: post ∧ SweepStopsAt n second x vs js pre i f ∧
        Jet.sweep n second x code js = .error f) := by
  induction code generalizing vs js with
  | nil =>
    refine ⟨(fun J hJ => nomatch hJ), fun e he => .inl ?_⟩
    cases he
    rfl
  | cons i rest ih =>
    by_cases hi : i = .ret
    · subst hi
      subst h
      -- at `RETURN` both read the size of the stack, which the values keep
      match js with
      | [j] =>
        refine ⟨fun J hJ => ?_, (fun e he => nomatch he)⟩
        simp only [Jet.sweep, Tangent.gradFinite, Failure.lift_ok, ok_bind] at hJ
        split at hJ
        · cases hJ
          rfl
        · cases hJ
      | [] => exact ⟨(fun J hJ => nomatch hJ), fun e he => .inl (by cases he; rfl)⟩
      | j :: k :: more =>
        refine ⟨(fun J hJ => nomatch hJ), fun e he => .inl ?_⟩
        cases he
        simp [Jet.sweep, Failure.report]
    · rw [Machine.run_cons_of_ne_ret x hi, Jet.sweep_cons_of_ne_ret n second x hi]
      have htr := step_tracks n second x h i
      generalize hm : Machine.step x vs i = m at htr ⊢
      generalize hr : Jet.step n second x js i = r at htr ⊢
      cases htr with
      | both hrel =>
        obtain ⟨ihOk, ihFail⟩ := ih hrel
        simp only [ok_bind]
        refine ⟨ihOk, fun e he => ?_⟩
        rcases ihFail e he with hsame | ⟨pre, j, post, f, rfl, hstop, hsweep⟩
        · exact .inl hsame
        · exact .inr ⟨i :: pre, j, post, f, rfl, hstop.cons n second x hi hm hr, hsweep⟩
      | same f =>
        simp only [error_bind]
        exact ⟨(fun J hJ => nomatch hJ), fun e he => .inl (by cases he; rfl)⟩
      | @own vs1 f hf =>
        -- the machine runs `i` and the sweep stops there: `i` is the stopping instruction
        simp only [ok_bind, error_bind]
        refine ⟨(fun J hJ => nomatch hJ), fun e _ => .inr ⟨[], i, rest, f, rfl, ?_, rfl⟩⟩
        exact ⟨by simp, hf, ⟨vs1, by simp [hm]⟩, js, rfl, hr⟩

/-- A step of a sweep on doubles aborts only on a quotient by zero, where
`Instr.ZeroQuotientAt` says. -/
theorem Jet.step_aborted {js : List DenseJet} {i : Instr Float} {c : Abort}
    (h : Jet.step n second x js i = .error (.aborted c)) :
    c = .zeroDivision ∧ i.ZeroQuotientAt js := by
  cases i with
  | push v => cases h
  | load j =>
    simp only [Jet.step] at h
    split at h <;> simp [Failure.report] at h
  | binary op =>
    rcases js with _ | ⟨jb, _ | ⟨ja, rest⟩⟩
    · simp [Jet.step, Failure.report] at h
    · simp [Jet.step, Failure.report] at h
    · simp only [Jet.step, map_eq_error] at h
      exact binary_aborted ja jb h
  | unary op =>
    rcases js with _ | ⟨ja, rest⟩
    · simp [Jet.step, Failure.report] at h
    · simp only [Jet.step, map_eq_error] at h
      exact unary_aborted ja h
  | ret => cases h

/-- The sweep from the jets `js` aborts at instruction `i`: the instructions `pre` before it hold
no `RETURN` and the sweep runs them, and on the jets they leave `i` divides by an exact zero where
`Instr.ZeroQuotientAt` says. -/
def SweepAbortsAt (js : List DenseJet) (pre : List (Instr Float)) (i : Instr Float) : Prop :=
  (∀ j ∈ pre, j ≠ .ret) ∧ ∃ js', pre.foldlM (Jet.step n second x) js = .ok js' ∧
    Jet.step n second x js' i = .error (.aborted .zeroDivision) ∧ i.ZeroQuotientAt js'

/-- A sweep aborting at an instruction aborts there also after one more instruction before
it. -/
theorem SweepAbortsAt.cons {js js1 : List DenseJet} {j : Instr Float} {pre : List (Instr Float)}
    {i : Instr Float} (hj : j ≠ .ret) (hjs : Jet.step n second x js j = .ok js1)
    (h : SweepAbortsAt n second x js1 pre i) : SweepAbortsAt n second x js (j :: pre) i := by
  obtain ⟨hpre, js', hjs', hi⟩ := h
  refine ⟨?_, js', ?_, hi⟩
  · intro k hk
    rcases List.mem_cons.1 hk with rfl | hk
    · exact hj
    · exact hpre k hk
  · rw [List.foldlM_cons, hjs, ok_bind, hjs']

/-- A sweep on doubles aborts only on a quotient by zero, at an instruction where
`Instr.ZeroQuotientAt` says. -/
theorem Jet.sweep_aborted {code : List (Instr Float)} {js : List DenseJet} {c : Abort}
    (h : Jet.sweep n second x code js = .error (.aborted c)) :
    c = .zeroDivision ∧ ∃ pre i post, code = pre ++ i :: post ∧ SweepAbortsAt n second x js pre i := by
  induction code generalizing js with
  | nil => simp [Jet.sweep, Failure.report] at h
  | cons i rest ih =>
    by_cases hi : i = .ret
    · subst hi
      match js with
      | [j] =>
        simp only [Jet.sweep, Tangent.gradFinite, Failure.lift_ok, ok_bind] at h
        split at h <;> simp [Failure.report] at h
      | [] => simp [Jet.sweep, Failure.report] at h
      | _ :: _ :: _ => simp [Jet.sweep, Failure.report] at h
    · rw [Jet.sweep_cons_of_ne_ret n second x hi] at h
      rcases bind_eq_error.1 h with hs | ⟨js1, hs, h⟩
      · -- the sweep stops at `i` itself
        obtain ⟨rfl, hz⟩ := Jet.step_aborted n second x hs
        exact ⟨rfl, [], i, rest, rfl, by simp, js, rfl, hs, hz⟩
      · obtain ⟨hc, pre, j, post, rfl, hstop⟩ := ih h
        exact ⟨hc, i :: pre, j, post, rfl, hstop.cons n second x hi hs⟩

end Run

/-! ## The sweep of a program -/

/-- The forward sweep of a program on doubles extends the machine, in first- and second-order
mode alike: after every number of instructions both complete, the jets' values are the machine's
stack; a jet the sweep returns carries the machine's result; and a failure the machine reports
is the sweep's failure too, unless the sweep stopped earlier, at an instruction the machine
still ran, on a failure of its own. -/
theorem jet_extends_execute (p : Bytecode Float) (x : List Float) (second : Bool) :
    (∀ k vs (js : List DenseJet), (p.code.take k).foldlM (Machine.step x) [] = .ok vs →
      (p.code.take k).foldlM (Jet.step x.length second x) [] = .ok js →
      js.map (·.value) = vs) ∧
    (∀ J : DenseJet, p.jet x second = .ok J → p.execute x = .ok J.value) ∧
    (∀ e, p.execute x = .error (.reported e) →
      (p.jet x second : Except Failure DenseJet) = .error (.reported e) ∨
      ∃ pre i post f, p.code = pre ++ i :: post ∧
        SweepStopsAt x.length second x [] [] pre i f ∧
        (p.jet x second : Except Failure DenseJet) = .error f) := by
  -- both start from an empty stack
  have hempty : ([] : List DenseJet).map (·.value) = [] := rfl
  have hrun := sweep_tracks_run x.length second x p.code hempty
  refine ⟨fun k vs js hv hj => foldlM_step_values x.length second x hempty hv hj, ?_, ?_⟩
  · intro J hJ
    unfold Bytecode.jet at hJ
    split at hJ
    · cases hJ
    · rename_i hlen
      rw [Bytecode.execute, if_neg hlen]
      exact hrun.1 J hJ
  · intro e he
    unfold Bytecode.execute at he
    unfold Bytecode.jet
    split at he
    · rename_i hlen
      rw [if_pos hlen]
      cases he
      exact .inl rfl
    · rename_i hlen
      rw [if_neg hlen]
      exact hrun.2 e he

/-- The product of the two inputs. -/
def productOfInputs : Bytecode Float := ⟨[.load 0, .load 1, .binary .mul, .ret], 2⟩

/-- The second-order sweep of `x * y` at `(1, 2)` returns the value `2`, the gradient `(2, 1)`
and the Hessian with `1` off its diagonal; the machine returns the same value. -/
theorem product_sweep_extends_execute :
    (productOfInputs.jet [1.0, 2.0] true : Except Failure DenseJet) =
      .ok ⟨2.0, [2.0, 1.0], some [[0.0, 1.0], [1.0, 0.0]]⟩ ∧
    productOfInputs.execute [1.0, 2.0] = .ok 2.0 := by
  have hjet : (productOfInputs.jet [1.0, 2.0] true : Except Failure DenseJet) =
      .ok ⟨2.0, [2.0, 1.0], some [[0.0, 1.0], [1.0, 0.0]]⟩ := by rfl
  exact ⟨hjet, (jet_extends_execute productOfInputs [1.0, 2.0] true).2.1 _ hjet⟩

/-- The forward sweep of a program on doubles aborts only on a quotient by zero, at an
instruction where `Instr.ZeroQuotientAt` says. -/
theorem Bytecode.jet_aborted {p : Bytecode Float} {x : List Float} {second : Bool} {c : Abort}
    (h : (p.jet x second : Except Failure DenseJet) = .error (.aborted c)) :
    c = .zeroDivision ∧
      ∃ pre i post, p.code = pre ++ i :: post ∧ SweepAbortsAt x.length second x [] pre i := by
  unfold Bytecode.jet at h
  split at h
  · simp [Failure.report] at h
  · exact Jet.sweep_aborted _ _ _ h

end ScalarDiff
