import ScalarDiff.Jet.Sweep

/-!
# Computing with outcomes

Every stage of the engine returns an outcome: a result, a reported failure or an abort
(`ScalarDiff.Failure`). These are the rewriting rules that let proofs run such computations
symbolically: a successful step passes its value on, a failed one ends the computation, and
relabelling the failures of a computation relabels the failure of whichever step stopped it.
The machine and the forward sweep run an instruction other than `RETURN` as one such step.
-/

namespace ScalarDiff

variable {ε ε' α β : Type}

@[simp]
theorem ok_bind (a : α) (f : α → Except ε β) : (Except.ok a >>= f) = f a := rfl

@[simp]
theorem error_bind (e : ε) (f : α → Except ε β) : (Except.error e >>= f) = .error e := rfl

@[simp]
theorem map_ok (f : α → β) (a : α) : (f <$> Except.ok a : Except ε β) = .ok (f a) := rfl

@[simp]
theorem map_error (f : α → β) (e : ε) : (f <$> Except.error e : Except ε β) = .error e := rfl

@[simp]
theorem map_eq_error {f : α → β} {m : Except ε α} {e : ε} :
    (f <$> m = .error e) ↔ m = .error e := by
  cases m <;> simp

@[simp]
theorem mapError_ok (g : ε → ε') (a : α) : (Except.ok a : Except ε α).mapError g = .ok a := rfl

@[simp]
theorem mapError_error (g : ε → ε') (e : ε) :
    (Except.error e : Except ε α).mapError g = .error (g e) := rfl

/-- A sequence succeeds exactly when its first step does and the rest succeeds from there. -/
theorem bind_eq_ok {m : Except ε α} {f : α → Except ε β} {b : β} :
    (m >>= f) = .ok b ↔ ∃ a, m = .ok a ∧ f a = .ok b := by
  cases m <;> simp

/-- A sequence fails exactly when its first step fails, or succeeds and the rest fails. -/
theorem bind_eq_error {m : Except ε α} {f : α → Except ε β} {e : ε} :
    (m >>= f) = .error e ↔ m = .error e ∨ ∃ a, m = .ok a ∧ f a = .error e := by
  cases m <;> simp

/-- A mapped computation succeeds exactly when the computation does, with the mapped value. -/
theorem map_eq_ok {f : α → β} {m : Except ε α} {b : β} :
    (f <$> m = .ok b) ↔ ∃ a, m = .ok a ∧ f a = b := by
  cases m <;> simp

@[simp]
theorem Failure.lift_ok (a : α) : Failure.lift (.ok a : Except Abort α) = .ok a := rfl

@[simp]
theorem Failure.lift_pure (a : α) : Failure.lift (pure a : Except Abort α) = pure a := rfl

@[simp]
theorem Failure.lift_error (a : Abort) :
    Failure.lift (.error a : Except Abort α) = .error (.aborted a) := rfl

/-- A lifted computation aborts exactly when the computation fails, with its failure. -/
theorem Failure.lift_eq_aborted {m : Except Abort α} {c : Abort} :
    Failure.lift m = .error (.aborted c) ↔ m = .error c := by
  cases m <;> simp

/-- A lifted computation never reports a failure. -/
theorem Failure.lift_ne_reported (m : Except Abort α) (e : EvalError) :
    Failure.lift m ≠ .error (.reported e) := by
  cases m <;> simp

@[simp]
theorem Failure.report_bind (e : EvalError) (f : α → Except Failure β) :
    (Failure.report e >>= f) = Failure.report e := rfl

/-- An instruction other than `RETURN` is one step, and the run goes on from its stack. -/
theorem Machine.run_cons_of_ne_ret {α : Type} [Scalar α] (inputs : List α) {i : Instr α}
    (h : i ≠ .ret) (rest : List (Instr α)) (s : List α) :
    Machine.run inputs (i :: rest) s = Machine.step inputs s i >>= Machine.run inputs rest := by
  cases i with
  | ret => exact absurd rfl h
  | _ => rfl

/-- In a sweep too, an instruction other than `RETURN` is one step. -/
theorem Jet.sweep_cons_of_ne_ret {α V M : Type} [Scalar α] [Tangent α V M] (n : Nat)
    (second : Bool) (point : List α) {i : Instr α} (h : i ≠ .ret) (rest : List (Instr α))
    (s : List (Jet α V M)) :
    Jet.sweep n second point (i :: rest) s =
      Jet.step n second point s i >>= Jet.sweep n second point rest := by
  cases i with
  | ret => exact absurd rfl h
  | _ => rfl

end ScalarDiff
