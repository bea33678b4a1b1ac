import ScalarDiff.Datum.Arith
import ScalarDiff.Machine
import ScalarDiff.Proofs.Aborts

/-!
# The stack check predicts the machine

`Bytecode.checkStack` replays a program's stack depths without running it. Every instruction
changes the machine's stack size as the replay changes its depth, and the checks on the shape of
a program (an input position, an underflow, the size at `RETURN`, a missing `RETURN`) read only
that size and the number of inputs. So, with one input per variable, the machine follows the
replay step for step (`step_replays`, `run_replays`): where the replay refuses, the machine
refuses with the same failure, unless it stopped before, at an instruction the replay passed,
on a failure that comes from the values themselves (`Failure.OfValues`: a domain failure, or an
abort of the values' arithmetic); and a program the replay accepts returns a value or stops on
such a failure.

Compiled programs hold doubles, whose arithmetic never aborts, so there the failure from the
values is always a domain failure. Hand-written bytecode may push any datum, and then the
machine may abort on its arithmetic (an integer beyond every double, multiplied by a double)
before it reaches the instruction the replay refuses (`stack_check_misses_value_aborts`).
-/

namespace ScalarDiff

variable {α : Type}

/-- The failures that come from the values on the stack and not from the shape of the program:
a domain failure of an operation (a zero divisor, the logarithm of a number that is not
positive, the square root of a negative one), or an abort of the values' own arithmetic. -/
def Failure.OfValues : Failure → Prop
  | .reported e => e.errorClass = .domain
  | .aborted _ => True

/-- A computation every failure of which comes from the values. -/
def FailsOnValues {β : Type} (m : Except Failure β) : Prop :=
  ∀ f, m = .error f → f.OfValues

namespace FailsOnValues

variable {β γ : Type}

theorem ok (b : β) : FailsOnValues (.ok b : Except Failure β) := by
  intro f h
  cases h

theorem lift (r : Except Abort β) : FailsOnValues (Failure.lift r) := by
  intro f h
  cases r with
  | ok b => cases h
  | error a =>
    cases h
    trivial

theorem report {e : EvalError} (he : e.errorClass = .domain) :
    FailsOnValues (Failure.report e : Except Failure β) := by
  intro f h
  cases h
  exact he

theorem bind {m : Except Failure β} {k : β → Except Failure γ} (hm : FailsOnValues m)
    (hk : ∀ b, FailsOnValues (k b)) : FailsOnValues (m >>= k) := by
  intro f h
  rcases bind_eq_error.1 h with h | ⟨b, -, h⟩
  · exact hm f h
  · exact hk b f h

end FailsOnValues

/-- An input position is refused exactly when it lies outside the inputs. -/
theorem inputAt_eq_none (x : List α) (i : Int) :
    inputAt? x i = none ↔ ¬(0 ≤ i ∧ i < x.length) := by
  unfold inputAt?
  split
  · next h0 =>
    rw [List.getElem?_eq_none_iff]
    omega
  · next h0 => exact ⟨fun _ h => absurd h.1 h0, fun _ => rfl⟩

namespace Bytecode

/-- The depth after one instruction, as the replay computes it; `RETURN` keeps it. -/
def depthStep (arity : Int) (depth : Nat) : Instr α → Except EvalError Nat
  | .push _ => .ok (depth + 1)
  | .load i => if 0 ≤ i ∧ i < arity then .ok (depth + 1) else .error (.indexOutOfBounds i)
  | .binary op => if depth < 2 then .error (.underflow op.name) else .ok (depth - 1)
  | .unary op => if depth < 1 then .error (.underflow op.name) else .ok depth
  | .ret => .ok depth

/-- Before the first `RETURN` the replay takes one instruction at a time. -/
theorem replayDepth_cons_of_ne_ret (arity : Int) {i : Instr α} (h : i ≠ .ret)
    (rest : List (Instr α)) (depth : Nat) :
    replayDepth arity (i :: rest) depth = depthStep arity depth i >>= replayDepth arity rest := by
  cases i with
  | ret => exact absurd rfl h
  | push c => rfl
  | load j =>
    simp only [replayDepth, depthStep]
    split <;> rfl
  | binary op =>
    simp only [replayDepth, depthStep]
    split <;> rfl
  | unary op =>
    simp only [replayDepth, depthStep]
    split <;> rfl

end Bytecode

/-- How the machine's outcome of one instruction relates to the replay's: a stack of the replayed
depth, the same refusal, or a failure of the values where the replay goes on. -/
inductive Replays : Except EvalError Nat → Except Failure (List α) → Prop
  | both {s : List α} {d : Nat} : s.length = d → Replays (.ok d) (.ok s)
  | same (e : EvalError) : Replays (.error e) (.error (.reported e))
  | values {d : Nat} {f : Failure} : f.OfValues → Replays (.ok d) (.error f)

variable [Scalar α]

/-- An operation on values fails only on the values. -/
theorem BinOp.apply_failsOnValues (op : BinOp) (a b : α) : FailsOnValues (op.apply a b) := by
  cases op with
  | div =>
    simp only [BinOp.apply]
    split
    · exact .report rfl
    · exact .lift _
  | add | sub | mul | pow => exact .lift _

theorem UnOp.apply_failsOnValues (op : UnOp) (x : α) : FailsOnValues (op.apply x) := by
  cases op with
  | neg | abs | sin | cos | tan | exp => exact .lift _
  | log | sqrt =>
    -- a comparison with zero, then either the domain failure or the function
    refine (FailsOnValues.lift _).bind fun below => ?_
    split
    · exact (FailsOnValues.lift _).bind fun _ => .report rfl
    · exact .lift _

/-- The machine stops at instruction `i` on a failure `f` of the values: the instructions `pre`
before it hold no `RETURN`, the replay passes `pre` and `i`, and the machine runs `pre` and then
fails at `i` with `f`. -/
def StopsOnValues (arity : Int) (x s : List α) (pre : List (Instr α)) (i : Instr α)
    (f : Failure) : Prop :=
  (∀ j ∈ pre, j ≠ .ret) ∧ f.OfValues ∧
    (∃ d, (pre ++ [i]).foldlM (Bytecode.depthStep arity) s.length = .ok d) ∧
    ∃ s', pre.foldlM (Machine.step x) s = .ok s' ∧ Machine.step x s' i = .error f

/-- A stop on the values stays one after one more instruction before it, run in step with the
replay. -/
theorem StopsOnValues.cons {arity : Int} {x s s₁ : List α} {j : Instr α} {pre : List (Instr α)}
    {i : Instr α} {f : Failure} (hj : j ≠ .ret)
    (hd : Bytecode.depthStep arity s.length j = .ok s₁.length)
    (hs : Machine.step x s j = .ok s₁) (h : StopsOnValues arity x s₁ pre i f) :
    StopsOnValues arity x s (j :: pre) i f := by
  obtain ⟨hpre, hf, ⟨d, hdep⟩, s', hrun, hi⟩ := h
  refine ⟨?_, hf, ⟨d, ?_⟩, s', ?_, hi⟩
  · intro k hk
    rcases List.mem_cons.1 hk with rfl | hk
    · exact hj
    · exact hpre k hk
  · rw [List.cons_append, List.foldlM_cons, hd, ok_bind, hdep]
  · rw [List.foldlM_cons, hs, ok_bind, hrun]

section Run

variable {arity : Int} (x : List α) (hx : (x.length : Int) = arity)
include hx

/-- One instruction of the machine follows the replay's step on the stack's size. -/
theorem step_replays (s : List α) (i : Instr α) :
    Replays (Bytecode.depthStep arity s.length i) (Machine.step x s i) := by
  cases i with
  | push c => exact .both rfl
  | load j =>
    simp only [Bytecode.depthStep, Machine.step]
    by_cases hj : 0 ≤ j ∧ j < arity
    · obtain ⟨v, hv⟩ := Option.ne_none_iff_exists'.1 fun h => (inputAt_eq_none x j).1 h (by omega)
      rw [if_pos hj, hv]
      exact .both rfl
    · rw [if_neg hj, (inputAt_eq_none x j).2 (by omega)]
      exact .same _
  | binary op =>
    -- the replay's depth is the stack's size, so both see the same underflow
    rcases s with _ | ⟨b, _ | ⟨a, rest⟩⟩
    · exact .same _
    · exact .same _
    · simp only [Bytecode.depthStep, Machine.step, List.length_cons]
      rw [if_neg (by omega), show rest.length + 1 + 1 - 1 = rest.length + 1 by omega]
      cases hv : op.apply a b with
      | ok v => exact .both rfl
      | error f => exact .values (BinOp.apply_failsOnValues op a b f hv)
  | unary op =>
    rcases s with _ | ⟨a, rest⟩
    · exact .same _
    · simp only [Bytecode.depthStep, Machine.step, List.length_cons]
      rw [if_neg (by omega)]
      cases hv : op.apply a with
      | ok v => exact .both rfl
      | error f => exact .values (UnOp.apply_failsOnValues op a f hv)
  | ret => exact .both rfl

/-- A whole run follows the replay: a refusal of the replay is the machine's failure too, unless
the machine stopped before on a failure of the values; and where the replay reaches `RETURN` at
depth one, the machine returns a value or stops on a failure of the values. The induction is on
the instructions, with the stack's size as the replayed depth. -/
theorem run_replays (code : List (Instr α)) (s : List α) :
    (∀ e, Bytecode.replayDepth arity code s.length = .error e →
      Machine.run x code s = .error (.reported e) ∨
      ∃ pre i post f, code = pre ++ i :: post ∧ StopsOnValues arity x s pre i f ∧
        Machine.run x code s = .error f) ∧
    (Bytecode.replayDepth arity code s.length = .ok () →
      (∃ v, Machine.run x code s = .ok v) ∨ ∃ f, Machine.run x code s = .error f ∧ f.OfValues) := by
  induction code generalizing s with
  | nil =>
    refine ⟨fun e he => .inl ?_, fun h => nomatch h⟩
    cases he
    rfl
  | cons i rest ih =>
    by_cases hi : i = .ret
    · subst hi
      -- at `RETURN` both read the size of the stack
      match s with
      | [v] =>
        refine ⟨fun e he => ?_, fun _ => .inl ⟨v, rfl⟩⟩
        simp [Bytecode.replayDepth] at he
      | [] =>
        refine ⟨fun e he => .inl ?_, fun h => ?_⟩
        · simp only [Bytecode.replayDepth, List.length_nil] at he
          cases he
          rfl
        · simp [Bytecode.replayDepth] at h
      | a :: b :: more =>
        refine ⟨fun e he => .inl ?_, fun h => ?_⟩
        · simp only [Bytecode.replayDepth, List.length_cons] at he
          rw [if_neg (by omega)] at he
          cases he
          rfl
        · simp [Bytecode.replayDepth] at h
    · rw [Bytecode.replayDepth_cons_of_ne_ret arity hi, Machine.run_cons_of_ne_ret x hi]
      have hstep := step_replays x hx s i
      generalize hd : Bytecode.depthStep arity s.length i = r at hstep ⊢
      generalize hm : Machine.step x s i = m at hstep ⊢
      cases hstep with
      | @both s₁ d hlen =>
        subst hlen
        simp only [ok_bind]
        obtain ⟨ihError, ihOk⟩ := ih s₁
        refine ⟨fun e he => ?_, ihOk⟩
        rcases ihError e he with hsame | ⟨pre, j, post, f, rfl, hstop, hrun⟩
        · exact .inl hsame
        · exact .inr ⟨i :: pre, j, post, f, rfl, hstop.cons hi hd hm, hrun⟩
      | same e =>
        simp only [error_bind]
        exact ⟨fun e' he => .inl (by cases he; rfl), fun h => nomatch h⟩
      | @values d f hf =>
        -- the machine stops at `i` while the replay goes on from depth `d`
        simp only [ok_bind, error_bind]
        refine ⟨fun e _ => .inr ⟨[], i, rest, f, rfl, ?_, rfl⟩, fun _ => .inr ⟨f, rfl, hf⟩⟩
        exact ⟨by simp, hf, ⟨d, by simp [hd]⟩, s, rfl, hm⟩

end Run

/-- On doubles a failure of the values is a domain failure: the machine never aborts. -/
theorem Failure.OfValues.domain_of_float {p : Bytecode Float} {x : List Float} {f : Failure}
    (hf : f.OfValues) (h : p.execute x = .error f) :
    ∃ e, f = .reported e ∧ e.errorClass = .domain := by
  cases f with
  | reported e => exact ⟨e, rfl, hf⟩
  | aborted c => exact absurd h (Bytecode.execute_float_ne_aborted p x c)

/-- The stack check of a program agrees with its run on one input per variable: a refusal of the
check is the machine's failure, message and all, unless the machine stopped before, at an
instruction the check passed, on a failure of the values; and a program the check accepts runs
to a value or to a failure of the values. -/
theorem Bytecode.checkStack_replays_execute (p : Bytecode α) (x : List α)
    (hx : (x.length : Int) = p.arity) :
    (∀ e, p.checkStack = .error e →
      p.execute x = .error (.reported e) ∨
      ∃ pre i post f, p.code = pre ++ i :: post ∧
        StopsOnValues p.arity x [] pre i f ∧ p.execute x = .error f) ∧
    (p.checkStack = .ok () → (∃ v, p.execute x = .ok v) ∨ ∃ f, p.execute x = .error f ∧ f.OfValues) := by
  have hrun : p.execute x = Machine.run x p.code [] := by
    rw [Bytecode.execute, if_neg (by omega)]
  rw [hrun]
  exact run_replays x hx p.code []

/-- The stack check agrees with the machine. On programs of doubles with one input per variable,
a refusal of the check is the machine's failure with the same message, unless the machine
stopped before, at an instruction the check passed, on a domain failure; a program the check
accepts returns a value or a domain failure, never a failure of shape. For any other values the
same holds with the abort of their arithmetic as a failure of the values. -/
theorem checkStack_agrees_with_execute :
    (∀ {α : Type} [Scalar α] (p : Bytecode α) (x : List α), (x.length : Int) = p.arity →
      (∀ e, p.checkStack = .error e →
        p.execute x = .error (.reported e) ∨
        ∃ pre i post f, p.code = pre ++ i :: post ∧
          StopsOnValues p.arity x [] pre i f ∧ p.execute x = .error f) ∧
      (p.checkStack = .ok () →
        (∃ v, p.execute x = .ok v) ∨ ∃ f, p.execute x = .error f ∧ f.OfValues)) ∧
    (∀ (p : Bytecode Float) (x : List Float), (x.length : Int) = p.arity →
      (∀ e, p.checkStack = .error e →
        p.execute x = .error (.reported e) ∨
        ∃ pre i post d, p.code = pre ++ i :: post ∧ d.errorClass = .domain ∧
          StopsOnValues p.arity x [] pre i (.reported d) ∧
          p.execute x = .error (.reported d)) ∧
      (p.checkStack = .ok () →
        (∃ v, p.execute x = .ok v) ∨
          ∃ d, d.errorClass = .domain ∧ p.execute x = .error (.reported d))) := by
  refine ⟨fun p x hx => Bytecode.checkStack_replays_execute p x hx, fun p x hx => ?_⟩
  obtain ⟨hfail, hpass⟩ := Bytecode.checkStack_replays_execute p x hx
  refine ⟨fun e he => ?_, fun hok => ?_⟩
  · rcases hfail e he with hsame | ⟨pre, i, post, f, hcode, hstop, hrun⟩
    · exact .inl hsame
    · obtain ⟨d, rfl, hd⟩ := hstop.2.1.domain_of_float hrun
      exact .inr ⟨pre, i, post, d, hcode, hd, hstop, hrun⟩
  · rcases hpass hok with hv | ⟨f, hrun, hf⟩
    · exact .inl hv
    · obtain ⟨d, rfl, hd⟩ := hf.domain_of_float hrun
      exact .inr ⟨d, hd, hrun⟩

/-- `PUSH_CONST 1.0; PUSH_CONST 0.0; DIV; ADD; RETURN`: a division by zero, then an addition with
one operand missing. -/
def divisionThenUnderflow : Bytecode Float :=
  ⟨[.push 1.0, .push 0.0, .binary .div, .binary .add, .ret], 0⟩

/-- The check refuses the addition, and the machine stops before it, on the division by zero. -/
theorem stack_check_on_division_before_underflow :
    (([] : List Float).length : Int) = divisionThenUnderflow.arity ∧
    divisionThenUnderflow.checkStack = .error (.underflow "ADD") ∧
    ∃ d, d.errorClass = .domain ∧ divisionThenUnderflow.execute [] = .error (.reported d) := by
  have hx : (([] : List Float).length : Int) = divisionThenUnderflow.arity := rfl
  have hcheck : divisionThenUnderflow.checkStack = .error (.underflow "ADD") := rfl
  refine ⟨hx, hcheck, ?_⟩
  rcases (checkStack_agrees_with_execute.2 divisionThenUnderflow [] hx).1 _ hcheck with
    hsame | ⟨pre, i, post, d, -, hd, -, hrun⟩
  · have hdiv : divisionThenUnderflow.execute [] = .error (.reported .divisionByZero) := rfl
    rw [hdiv] at hsame
    cases hsame
  · exact ⟨d, hd, hrun⟩

/-- The integer `10^400`, beyond every double. -/
def beyondDoubles : Int := Int.pow 10 400

/-- `PUSH_CONST 10^400; PUSH_CONST 2.0; MUL; ADD; RETURN`, with an integer constant beyond every
double. -/
def hugeProductThenUnderflow : Bytecode Datum :=
  ⟨[.push (.int beyondDoubles), .push (.real 2.0), .binary .mul, .binary .add, .ret], 0⟩

/-- With an integer constant beyond every double the check still refuses the addition, but the
machine aborts on the product before it: neither the check's failure nor a domain failure. -/
theorem stack_check_misses_value_aborts :
    hugeProductThenUnderflow.checkStack = .error (.underflow "ADD") ∧
    hugeProductThenUnderflow.execute [] = .error (.aborted .integerTooLarge) := by
  have hN : Decimal.intToFloat? beyondDoubles = none :=
    Option.isNone_iff_eq_none.1 (by decide +kernel)
  refine ⟨rfl, ?_⟩
  -- the product reads the integer as a double first, and no double is that large
  simp [hugeProductThenUnderflow, Bytecode.execute, Machine.run, Machine.step, BinOp.apply,
    Scalar.mul, Datum.mul, Datum.number?, Datum.Number.combine, Datum.Number.toFloat,
    Datum.wholeToFloat, hN]

end ScalarDiff
