import ScalarDiff.Proofs.JetRules

/-!
# The second-order sweep extends the first-order one

A first-order sweep carries no Hessians; a second-order sweep carries one in every jet and
otherwise applies the same rules. Every rule computes the value and the gradient without looking
at the Hessians, and on dense arrays the Hessian terms never fail, so dropping the Hessians
(`Jet.firstOrder`) commutes with every rule but one: a power decides between its two rules by
asking whether the exponent is constant, and a second-order sweep also asks the exponent's
Hessian. An exponent whose gradient is zero and whose Hessian is not (`Jet.flatCurved`, such as
`x * x` at `x = 0`) is constant to the first-order sweep and varying to the second-order sweep,
which then differentiates the power through `exp (b · log a)`: it needs a positive base, and
its gradient is rounded differently (`second_order_powers_can_diverge`).

Where no power meets such an exponent (`PowersDecideAlike`), the two sweeps agree step by step
(`Extends`): the same jets up to their Hessians, the same failure, or a failure of the
second-order sweep alone on the finiteness of a power's second derivative, after which the
first-order sweep may still go on to succeed or to fail otherwise (as `log (x ^ 1.5)` does at
`x = 0`, on the logarithm of zero). That check stops the second-order sweep at a power both
sweeps reached alike (`Jet.sweep_powCheck_at`), never after the instruction where the first-order
sweep fails: only the power's rule has the check (`Jet.step_powNonFinite`). Each rule but the power commutes with dropping Hessians
(`Jet.binary_extends`, `Jet.unary_firstOrder`), so each instruction does (`Jet.step_extends`), and
by induction over the instructions so does the whole sweep (`Jet.sweep_extends`). The main
statement is `second_order_extends_first`.
-/

namespace ScalarDiff

namespace Jet

/-- The jet with its Hessian dropped: what a first-order sweep carries in its place. -/
def firstOrder (J : DenseJet) : DenseJet := { J with hess := none }

/-- An exponent that is constant to first order but not to second: its gradient has no nonzero
entry and its Hessian has one. -/
def flatCurved (b : DenseJet) : Bool := b.firstOrder.isConstant && !b.isConstant

@[simp]
theorem firstOrder_value (J : DenseJet) : J.firstOrder.value = J.value := rfl

@[simp]
theorem firstOrder_grad (J : DenseJet) : J.firstOrder.grad = J.grad := rfl

@[simp]
theorem firstOrder_hess (J : DenseJet) : J.firstOrder.hess = none := rfl

/-- A jet constant to second order is constant to first order. -/
theorem isConstant_firstOrder {b : DenseJet} (h : b.isConstant = true) :
    b.firstOrder.isConstant = true := by
  simp only [isConstant, Bool.and_eq_true] at h ⊢
  exact ⟨h.1, rfl⟩

/-- Where an exponent is not flat but curved, both sweeps call it constant or both do not. -/
theorem isConstant_firstOrder_eq {b : DenseJet} (h : b.flatCurved = false) :
    b.firstOrder.isConstant = b.isConstant := by
  cases hb : b.isConstant with
  | true => exact isConstant_firstOrder hb
  | false => simpa [flatCurved, hb] using h

end Jet

/-! ## Outcomes of the two sweeps -/

/-- How an outcome of the second-order sweep relates to the first-order sweep's: results related
by `R`, the same failure, or a failure of the second-order sweep on the finiteness of a power's
derivative, whatever the first-order sweep does from there. -/
inductive Extends {β γ : Type} (R : β → γ → Prop) : Except Failure β → Except Failure γ → Prop
  | both {b : β} {c : γ} : R b c → Extends R (.ok b) (.ok c)
  | same (f : Failure) : Extends R (.error f) (.error f)
  | powCheck (first : Except Failure β) (s : String) :
      Extends R first (.error (.reported (.powNonFinite s)))

theorem Extends.map {β γ β' γ' : Type} {R : β → γ → Prop} {S : β' → γ' → Prop}
    {f : β → β'} {g : γ → γ'} {x : Except Failure β} {y : Except Failure γ} (h : Extends R x y)
    (hfg : ∀ b c, R b c → S (f b) (g c)) : Extends S (f <$> x) (g <$> y) := by
  cases h with
  | both hbc => exact .both (hfg _ _ hbc)
  | same f => exact .same f
  | powCheck first s => exact .powCheck _ s

/-- An outcome and its image under `f` are related by `f`. -/
theorem Extends.of_map {β γ : Type} (f : γ → β) (y : Except Failure γ) :
    Extends (fun b c => b = f c) (f <$> y) y := by
  cases y with
  | ok c => exact .both rfl
  | error e => exact .same e

namespace Jet

/-! ## Every rule but the power forgets Hessians -/

section Rules

variable (a b : DenseJet)

theorem add_firstOrder : Jet.add a.firstOrder b.firstOrder = firstOrder <$> Jet.add a b := by
  rw [add_dense, add_dense]
  rfl

theorem sub_firstOrder : Jet.sub a.firstOrder b.firstOrder = firstOrder <$> Jet.sub a b := by
  rw [sub_dense, sub_dense]
  rfl

theorem mul_firstOrder : Jet.mul a.firstOrder b.firstOrder = firstOrder <$> Jet.mul a b := by
  rw [mul_dense, mul_dense]
  rfl

theorem neg_firstOrder : Jet.neg a.firstOrder = firstOrder <$> Jet.neg a := by
  rw [neg_dense, neg_dense]
  rfl

theorem div_firstOrder : Jet.div a.firstOrder b.firstOrder = firstOrder <$> Jet.div a b := by
  cases hb : Scalar.isZero b.value with
  | true => simp [Jet.div, hb, Failure.report]
  | false =>
    simp only [Jet.div, firstOrder_value, hb, Bool.false_eq_true, if_false, Scalar.div_float hb,
      ok_bind, Failure.lift_ok, chain_dense, mul_dense]
    rfl

theorem unary_firstOrder (op : UnOp) :
    Jet.unary op a.firstOrder = firstOrder <$> Jet.unary op a := by
  cases op with
  | neg => exact neg_firstOrder a
  | log =>
    by_cases h : a.value ≤ 0.0
    · simp [Jet.unary, Scalar.atMostZero, h, Failure.report, Scalar.spelled]
    · rcases logSlopes_ok_or a.value with ⟨t, ht, -⟩ | ht
      · simp only [Jet.unary, firstOrder_value, Scalar.atMostZero, h, decide_false,
          Failure.lift_ok, ok_bind, Bool.false_eq_true, if_false, ht, chain_dense]
        rfl
      · simp [Jet.unary, Scalar.atMostZero, h, ht]
  | sqrt =>
    by_cases h : a.value < 0.0
    · simp [Jet.unary, Scalar.belowZero, h, Failure.report, Scalar.spelled]
    · cases hz : Scalar.isZero a.value with
      | true => simp [Jet.unary, Scalar.belowZero, h, hz, Failure.report]
      | false =>
        cases hs : Scalar.isZero (Float.sqrt a.value) with
        | true =>
          simp [Jet.unary, Scalar.belowZero, Scalar.sqrt, h, hz,
            Jet.rootSlopes_of_zero_root a.value hs]
        | false =>
          simp only [Jet.unary, firstOrder_value, Scalar.belowZero, Scalar.sqrt, h, hz,
            decide_false, Bool.false_eq_true, if_false, Failure.lift_ok, ok_bind,
            Jet.rootSlopes_float hs hz, chain_dense]
          rfl
  | sin | cos =>
    simp only [Jet.unary, firstOrder_value, Scalar.sin, Scalar.cos, Scalar.neg, ok_bind,
      Failure.lift_ok, chain_dense]
    rfl
  | tan =>
    simp only [Jet.unary, firstOrder_value, Scalar.tan, Jet.tangentSlopes_float, ok_bind,
      Failure.lift_ok, chain_dense]
    rfl
  | exp =>
    simp only [Jet.unary, firstOrder_value, Scalar.exp, ok_bind, Failure.lift_ok, chain_dense]
    rfl
  | abs =>
    simp only [Jet.unary, firstOrder_value, Scalar.abs, Scalar.atLeastZero, Scalar.ofFloat_float,
      ok_bind, Failure.lift_ok, chain_dense]
    rfl

/-- A power: unless the exponent is flat but curved, both sweeps take the same rule, and the
second-order sweep's rule for a constant exponent also requires a finite second derivative. -/
theorem pow_extends (hb : b.flatCurved = false) :
    Extends (fun J1 J2 => J1 = J2.firstOrder) (Jet.pow a.firstOrder b.firstOrder)
      (Jet.pow a b) := by
  unfold Jet.pow
  simp only [firstOrder_value, Scalar.pow, Failure.lift_ok, ok_bind, isConstant_firstOrder_eq hb]
  split
  · obtain ⟨⟨d1, d2⟩, hd⟩ := constantPowerSlopes_ok a.value b.value
    simp only [hd, Failure.lift_ok, ok_bind, firstOrder_hess, Option.isSome_none,
      Bool.false_and, Bool.or_false, Scalar.spelled, chain_dense]
    cases hd1 : Scalar.isFinite d1 with
    | false => exact .same _
    | true =>
      simp only [Bool.not_true, Bool.false_or, Bool.false_eq_true, if_false]
      split
      · exact .powCheck _ _
      · exact .both rfl
  · simp only [Scalar.atMostZero, Failure.lift_ok, ok_bind]
    split
    · exact .same _
    · rcases logSlopes_ok_or a.value with ⟨⟨l, d1, d2⟩, hl, -⟩ | hl
      · simp only [hl, Failure.lift_ok, ok_bind, chain_dense, mul_dense]
        exact .both rfl
      · simp only [hl, Failure.lift_error, error_bind]
        exact .same _

/-- Every binary rule but the power forgets Hessians, and the power too where its exponent is
not flat but curved. -/
theorem binary_extends (op : BinOp) (hb : op = .pow → b.flatCurved = false) :
    Extends (fun J1 J2 => J1 = J2.firstOrder) (Jet.binary op a.firstOrder b.firstOrder)
      (Jet.binary op a b) := by
  cases op with
  | add => simpa only [Jet.binary, add_firstOrder] using Extends.of_map firstOrder _
  | sub => simpa only [Jet.binary, sub_firstOrder] using Extends.of_map firstOrder _
  | mul => simpa only [Jet.binary, mul_firstOrder] using Extends.of_map firstOrder _
  | div => simpa only [Jet.binary, div_firstOrder] using Extends.of_map firstOrder _
  | pow => exact pow_extends a b (hb rfl)

/-! Only the power's rule reports a derivative that is not finite. -/

theorem unary_ne_powNonFinite (op : UnOp) (s : String) :
    Jet.unary op a ≠ .error (.reported (.powNonFinite s)) := by
  cases op with
  | log =>
    by_cases hle : a.value ≤ 0.0 <;>
      simp [Jet.unary, Scalar.atMostZero, Scalar.spelled, hle, Failure.report,
        Failure.lift_ne_reported]
  | sqrt =>
    by_cases hlt : a.value < 0.0
    · simp [Jet.unary, Scalar.belowZero, Scalar.spelled, hlt, Failure.report]
    · simp [Jet.unary, Scalar.belowZero, hlt]
      split <;> simp [Failure.report, Failure.lift_ne_reported]
  | neg => simp [Jet.unary, Jet.neg, Failure.lift_ne_reported]
  | _ => simp [Jet.unary, Failure.lift_ne_reported]

theorem binary_powNonFinite {op : BinOp} {s : String}
    (h : Jet.binary op a b = .error (.reported (.powNonFinite s))) : op = .pow := by
  cases op with
  | add =>
    obtain ⟨J, hJ, -⟩ := add_ok a b
    simp [Jet.binary, hJ] at h
  | sub =>
    obtain ⟨J, hJ, -⟩ := sub_ok a b
    simp [Jet.binary, hJ] at h
  | mul =>
    obtain ⟨J, hJ, -⟩ := mul_ok a b
    simp [Jet.binary, hJ] at h
  | div =>
    cases hb : Scalar.isZero b.value with
    | false =>
      obtain ⟨J, hJ, -⟩ := div_ok a b hb
      simp [Jet.binary, hJ] at h
    | true => simp [Jet.binary, Jet.div, hb, Failure.report] at h
  | pow => rfl

end Rules

/-! ## One instruction, and a whole sweep -/

section Run

variable (n : Nat) (x : List Float)

/-- One instruction, run by the first-order sweep on the stack with its Hessians dropped and by
the second-order sweep on the stack itself, unless it is a power popping an exponent that is flat
but curved. -/
theorem step_extends (js : List DenseJet) (i : Instr Float)
    (hpow : ∀ b rest, i = .binary .pow → js = b :: rest → b.flatCurved = false) :
    Extends (fun s1 s2 => s1 = s2.map firstOrder) (Jet.step n false x (js.map firstOrder) i)
      (Jet.step n true x js i) := by
  cases i with
  | push c => exact .both rfl
  | load k =>
    simp only [Jet.step]
    cases inputAt? x k with
    | some v => exact .both rfl
    | none => exact .same _
  | binary op =>
    -- the operands are the top two jets; a shorter stack underflows in both sweeps
    rcases js with _ | ⟨jb, _ | ⟨ja, rest⟩⟩
    · exact .same _
    · exact .same _
    · simp only [Jet.step, List.map_cons]
      exact (binary_extends ja jb op fun h => hpow jb _ (by rw [h]) rfl).map fun J1 J2 h => by simp [h]
  | unary op =>
    rcases js with _ | ⟨ja, rest⟩
    · exact .same _
    · simp only [Jet.step, List.map_cons, unary_firstOrder]
      exact (Extends.of_map firstOrder _).map fun J1 J2 h => by simp [h]
  | ret => exact .both rfl

/-- No power that a second-order sweep of `code` from the stack `js` reaches before a `RETURN`
pops an exponent that is flat but curved. -/
def PowersDecideAlike (code : List (Instr Float)) (js : List DenseJet) : Prop :=
  ∀ k b rest, (∀ i ∈ code.take k, i ≠ .ret) → code[k]? = some (.binary .pow) →
    (code.take k).foldlM (Jet.step n true x) js = .ok (b :: rest) → b.flatCurved = false

theorem PowersDecideAlike.head {i : Instr Float} {code : List (Instr Float)}
    {js : List DenseJet} (h : PowersDecideAlike n x (i :: code) js) (b : DenseJet)
    (rest : List DenseJet) (hi : i = .binary .pow) (hjs : js = b :: rest) :
    b.flatCurved = false :=
  h 0 b rest (by simp) (by simp [hi]) (by rw [List.take_zero, List.foldlM_nil, hjs]; rfl)

theorem PowersDecideAlike.tail {i : Instr Float} {code : List (Instr Float)}
    {js js1 : List DenseJet} (h : PowersDecideAlike n x (i :: code) js) (hi : i ≠ .ret)
    (hstep : Jet.step n true x js i = .ok js1) : PowersDecideAlike n x code js1 := by
  intro k b rest hret hpow hrun
  refine h (k + 1) b rest ?_ (by simpa using hpow) ?_
  · intro j hj
    rcases List.mem_cons.1 (by simpa using hj) with rfl | hj
    · exact hi
    · exact hret j hj
  · rw [List.take_succ_cons, List.foldlM_cons, hstep, ok_bind, hrun]

/-- A whole sweep: the first-order sweep from the stack with its Hessians dropped extends to the
second-order sweep, where no power meets an exponent that is flat but curved. -/
theorem sweep_extends (code : List (Instr Float)) (js : List DenseJet)
    (h : PowersDecideAlike n x code js) :
    Extends (fun J1 J2 => J1 = J2.firstOrder) (Jet.sweep n false x code (js.map firstOrder))
      (Jet.sweep n true x code js) := by
  induction code generalizing js with
  | nil => exact .same _
  | cons i rest ih =>
    by_cases hi : i = .ret
    · subst hi
      -- at `RETURN` both read the one gradient, which dropping Hessians keeps
      rcases js with _ | ⟨j, _ | ⟨k, more⟩⟩
      · exact .same _
      · simp only [Jet.sweep, List.map_cons, List.map_nil, Tangent.gradFinite, Failure.lift_ok,
          ok_bind, firstOrder_grad]
        split
        · exact .both rfl
        · exact .same _
      · simp only [Jet.sweep, List.map_cons, List.length_cons, List.length_map]
        exact .same _
    · rw [Jet.sweep_cons_of_ne_ret n false x hi, Jet.sweep_cons_of_ne_ret n true x hi]
      have hstep := step_extends n x js i fun b r hp hjs => h.head n x b r hp hjs
      generalize Jet.step n false x (js.map firstOrder) i = l at hstep ⊢
      generalize hr : Jet.step n true x js i = r at hstep ⊢
      cases hstep with
      | both hrel =>
        rw [hrel]
        exact ih _ (h.tail n x hi hr)
      | same f => exact .same f
      | powCheck first s => exact .powCheck _ s

/-- A step that reports a derivative that is not finite is a power. -/
theorem step_powNonFinite {second : Bool} {js : List DenseJet} {i : Instr Float} {s : String}
    (h : Jet.step n second x js i = .error (.reported (.powNonFinite s))) : i = .binary .pow := by
  cases i with
  | push v => cases h
  | load j =>
    simp only [Jet.step] at h
    split at h <;> simp [Failure.report] at h
  | binary op =>
    rcases js with _ | ⟨jb, _ | ⟨ja, rest⟩⟩
    · simp [Jet.step, Failure.report] at h
    · simp [Jet.step, Failure.report] at h
    · simp only [Jet.step, map_eq_error] at h
      rw [binary_powNonFinite ja jb h]
  | unary op =>
    rcases js with _ | ⟨ja, rest⟩
    · simp [Jet.step, Failure.report] at h
    · simp only [Jet.step, map_eq_error] at h
      exact absurd h (unary_ne_powNonFinite ja op s)
  | ret => cases h

/-- The second-order sweep from `js` stops at the power `code[k]` on the finiteness check of its
second derivative, with the base spelled `s`, after both sweeps ran the `k` instructions before
it, none of them `RETURN`, to the same stacks up to their Hessians. So the first-order sweep
fails, if it does, at that power or after it. -/
def PowCheckAt (code : List (Instr Float)) (js : List DenseJet) (k : Nat) (s : String) : Prop :=
  (∀ i ∈ code.take k, i ≠ .ret) ∧ code[k]? = some (.binary .pow) ∧
    ∃ js', (code.take k).foldlM (Jet.step n true x) js = .ok js' ∧
      (code.take k).foldlM (Jet.step n false x) (js.map firstOrder) = .ok (js'.map firstOrder) ∧
      Jet.step n true x js' (.binary .pow) = .error (.reported (.powNonFinite s))

/-- A power check one instruction further on, after an instruction both sweeps run alike. -/
theorem PowCheckAt.cons {i : Instr Float} {code : List (Instr Float)} {js js1 : List DenseJet}
    {k : Nat} {s : String} (hi : i ≠ .ret) (h2 : Jet.step n true x js i = .ok js1)
    (h1 : Jet.step n false x (js.map firstOrder) i = .ok (js1.map firstOrder))
    (h : PowCheckAt n x code js1 k s) : PowCheckAt n x (i :: code) js (k + 1) s := by
  obtain ⟨hret, hpow, js', hrun2, hrun1, hstop⟩ := h
  refine ⟨?_, by simpa using hpow, js', ?_, ?_, hstop⟩
  · intro j hj
    rcases List.mem_cons.1 (by simpa using hj) with rfl | hj
    · exact hi
    · exact hret j hj
  · rw [List.take_succ_cons, List.foldlM_cons, h2, ok_bind, hrun2]
  · rw [List.take_succ_cons, List.foldlM_cons, h1, ok_bind, hrun1]

/-- Where the second-order sweep fails on a power's finiteness check, the first-order sweep fails
the same way, or the check stopped the second-order sweep at a power both sweeps reached
alike. -/
theorem sweep_powCheck_at (code : List (Instr Float)) (js : List DenseJet)
    (h : PowersDecideAlike n x code js) {s : String}
    (h2 : Jet.sweep n true x code js = .error (.reported (.powNonFinite s))) :
    Jet.sweep n false x code (js.map firstOrder) = .error (.reported (.powNonFinite s)) ∨
      ∃ k, PowCheckAt n x code js k s := by
  induction code generalizing js with
  | nil => simp [Jet.sweep, Failure.report] at h2
  | cons i rest ih =>
    by_cases hi : i = .ret
    · subst hi
      -- `RETURN` reports only on the size of the stack and the gradient
      rcases js with _ | ⟨j, _ | ⟨k, more⟩⟩
      · simp [Jet.sweep, Failure.report] at h2
      · simp only [Jet.sweep, Tangent.gradFinite, Failure.lift_ok, ok_bind] at h2
        split at h2 <;> simp [Failure.report] at h2
      · simp [Jet.sweep, Failure.report] at h2
    · rw [Jet.sweep_cons_of_ne_ret n true x hi] at h2
      rw [Jet.sweep_cons_of_ne_ret n false x hi]
      have hstep := step_extends n x js i fun b r hp hjs => h.head n x b r hp hjs
      generalize hl : Jet.step n false x (js.map firstOrder) i = l at hstep ⊢
      generalize hr : Jet.step n true x js i = r at hstep h2
      cases hstep with
      | both hrel =>
        subst hrel
        rw [ok_bind] at h2 ⊢
        rcases ih _ (h.tail n x hi hr) h2 with hsame | ⟨k, hk⟩
        · exact .inl hsame
        · exact .inr ⟨k + 1, hk.cons n x hi hr hl⟩
      | same f =>
        rw [error_bind] at h2 ⊢
        exact .inl h2
      | powCheck first s' =>
        -- the check stops the second-order sweep at `i` itself, which is a power
        rw [error_bind] at h2
        cases h2
        refine .inr ⟨0, by simp, ?_, js, rfl, rfl, ?_⟩
        · simp [step_powNonFinite n x hr]
        · rw [← step_powNonFinite n x hr]
          exact hr

end Run

end Jet

/-- The second-order sweep of a program on doubles extends the first-order one wherever no power
meets an exponent whose gradient is zero and whose Hessian is not: a jet it returns has the
value and the gradient of the jet the first-order sweep returns, bit for bit; where the
first-order sweep returns a jet, it returns one too or fails on the finiteness of a power's
derivative; and where the first-order sweep fails, it fails the same way, or on the finiteness
of a power's derivative. A failure on that check stops it at a power both sweeps reached alike
(`Jet.PowCheckAt`), so at or before the instruction where the first-order sweep fails. -/
theorem second_order_extends_first (p : Bytecode Float) (x : List Float)
    (hpow : Jet.PowersDecideAlike x.length x p.code []) :
    (∀ J2 : DenseJet, p.jet x true = .ok J2 →
      ∃ J1 : DenseJet, p.jet x false = .ok J1 ∧ J1.value = J2.value ∧ J1.grad = J2.grad) ∧
    (∀ J1 : DenseJet, p.jet x false = .ok J1 →
      (∃ J2 : DenseJet, p.jet x true = .ok J2 ∧ J1.value = J2.value ∧ J1.grad = J2.grad) ∨
        ∃ s k, (p.jet x true : Except Failure DenseJet) = .error (.reported (.powNonFinite s)) ∧
          Jet.PowCheckAt x.length x p.code [] k s) ∧
    (∀ f, (p.jet x false : Except Failure DenseJet) = .error f →
      (p.jet x true : Except Failure DenseJet) = .error f ∨
        ∃ s k, (p.jet x true : Except Failure DenseJet) = .error (.reported (.powNonFinite s)) ∧
          Jet.PowCheckAt x.length x p.code [] k s) := by
  have hext : Extends (fun J1 J2 => J1 = J2.firstOrder) (p.jet x false : Except Failure DenseJet)
      (p.jet x true) := by
    unfold Bytecode.jet
    split
    · exact .same _
    · exact Jet.sweep_extends x.length x p.code [] hpow
  have hat : ∀ s, (p.jet x true : Except Failure DenseJet) = .error (.reported (.powNonFinite s)) →
      (p.jet x false : Except Failure DenseJet) = .error (.reported (.powNonFinite s)) ∨
        ∃ k, Jet.PowCheckAt x.length x p.code [] k s := by
    intro s h2
    unfold Bytecode.jet at h2 ⊢
    split at h2
    · simp [Failure.report] at h2
    · rename_i hlen
      rw [if_neg hlen]
      exact Jet.sweep_powCheck_at x.length x p.code [] hpow h2
  generalize (p.jet x false : Except Failure DenseJet) = first at hext hat ⊢
  generalize (p.jet x true : Except Failure DenseJet) = second at hext hat ⊢
  cases hext with
  | both hrel =>
    subst hrel
    refine ⟨fun J2 h2 => ?_, fun J1 h1 => ?_, fun f h1 => (by cases h1)⟩
    · cases h2
      exact ⟨_, rfl, rfl, rfl⟩
    · cases h1
      exact .inl ⟨_, rfl, rfl, rfl⟩
  | same f =>
    refine ⟨fun J2 h2 => (by cases h2), fun J1 h1 => (by cases h1), fun g h1 => ?_⟩
    cases h1
    exact .inl rfl
  | powCheck first s =>
    refine ⟨fun J2 h2 => (by cases h2), fun J1 h1 => ?_, fun f h1 => ?_⟩
    · -- a first-order jet is no failure, so the check is located
      rcases hat s rfl with hsame | ⟨k, hk⟩
      · rw [h1] at hsame
        cases hsame
      · exact .inr ⟨s, k, rfl, hk⟩
    · rcases hat s rfl with hsame | ⟨k, hk⟩
      · rw [h1] at hsame
        cases hsame
        exact .inl rfl
      · exact .inr ⟨s, k, rfl, hk⟩

/-- `x ^ 2`. -/
def squareOfInput : Bytecode Float := ⟨[.load 0, .push 2.0, .binary .pow, .ret], 1⟩

/-- The one power of `x ^ 2` pops the constant `2`, which is no exponent flat but curved, so at
`x = 3` the two sweeps agree. -/
theorem square_sweeps_agree :
    Jet.PowersDecideAlike [3.0].length [3.0] squareOfInput.code [] ∧
    (∀ J2 : DenseJet, squareOfInput.jet [3.0] true = .ok J2 →
      ∃ J1 : DenseJet, squareOfInput.jet [3.0] false = .ok J1 ∧ J1.value = J2.value ∧
        J1.grad = J2.grad) ∧
    (∀ J1 : DenseJet, squareOfInput.jet [3.0] false = .ok J1 →
      (∃ J2 : DenseJet, squareOfInput.jet [3.0] true = .ok J2 ∧ J1.value = J2.value ∧
        J1.grad = J2.grad) ∨
        ∃ s k, (squareOfInput.jet [3.0] true : Except Failure DenseJet) =
          .error (.reported (.powNonFinite s)) ∧
          Jet.PowCheckAt [3.0].length [3.0] squareOfInput.code [] k s) ∧
    (∀ f, (squareOfInput.jet [3.0] false : Except Failure DenseJet) = .error f →
      (squareOfInput.jet [3.0] true : Except Failure DenseJet) = .error f ∨
        ∃ s k, (squareOfInput.jet [3.0] true : Except Failure DenseJet) =
          .error (.reported (.powNonFinite s)) ∧
          Jet.PowCheckAt [3.0].length [3.0] squareOfInput.code [] k s) := by
  have hpow : Jet.PowersDecideAlike [3.0].length [3.0] squareOfInput.code [] := by
    intro k b rest _ hk hrun
    rcases k with _ | _ | _ | k
    · simp [squareOfInput] at hk
    · simp [squareOfInput] at hk
    · -- before the power the stack holds the constant `2` on top of the input
      simp only [squareOfInput, List.take, List.foldlM_cons, List.foldlM_nil, Jet.step,
        inputAt?] at hrun
      cases hrun
      rfl
    · -- past the power come `RETURN` and nothing
      simp only [squareOfInput, List.getElem?_cons_succ] at hk
      rcases k with _ | k <;> simp at hk
  exact ⟨hpow, second_order_extends_first squareOfInput [3.0] hpow⟩

/-- `(-2) ^ (x · x)`. At `x = 0` its exponent has gradient zero and Hessian two. -/
def negativeBaseOfSquare : Bytecode Float :=
  ⟨[.push (-2.0), .load 0, .load 0, .binary .mul, .binary .pow, .ret], 1⟩

/-- At `x = 0` the first-order sweep of `(-2) ^ (x · x)` takes the exponent for a constant and
returns a jet, while the second-order sweep takes it for a varying exponent and refuses the
negative base: a failure that is not about the finiteness of a derivative. -/
theorem second_order_powers_can_diverge :
    (∃ J : DenseJet, negativeBaseOfSquare.jet [0.0] false = .ok J) ∧
      (negativeBaseOfSquare.jet [0.0] true : Except Failure DenseJet) =
        .error (.reported .powBaseNotPositive) :=
  ⟨⟨_, rfl⟩, rfl⟩

end ScalarDiff
