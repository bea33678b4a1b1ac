import Mathlib
import ScalarDiff.Proofs.CallArity

/-!
# The nesting limit only ever refuses

Reading and compiling compare every depth they enter with the nesting limit and refuse once a
depth reaches it. Nothing else they do looks at the limit, so a run that is not refused for its
nesting never met a depth that reached the limit, and under a larger limit it meets none either:
it takes the same steps and ends the same way. This module states the order of limits as
numbers (`NestingLimit.instLE`: exact, so `2 ≤ 2.5 ≤ 3`, and a NaN limit is comparable with
none) and shows that a larger limit is reached at fewer depths (`NestingLimit.reached_of_le`). For the
compiler it then shows:

* a compilation that is not refused for nesting gives the same result under every limit that
  depths reach no more often (`Compiler.node_limit`);
* with every depth it checks below the limit, the compiler returns what the depth-free emitter
  `Compiler.emit` returns (`Compiler.node_eq_emit`), which performs the compiler's other checks
  in the same order;
* so a compilation not refused for nesting is the emitter's (`Compiler.node_eq_emit_of_shallow`),
  and every tree has a least integer limit from which on it compiles to the emitter's result,
  every smaller limit refusing it for nesting (`Expr.compile_threshold`).
-/

namespace ScalarDiff

/-! ## Limits as numbers -/

/-- The exact value of a finite double: `± significand × 2^exponent`. -/
noncomputable def Decimal.Binary.value (b : Decimal.Binary) : ℝ :=
  (if b.negative then -1 else 1) * b.significand * (2 : ℝ) ^ b.exponent

/-- The exact value of a double on the extended line: its binary value when it is finite, `⊥`
and `⊤` for the two infinities, and none for a NaN, which is comparable with nothing. -/
noncomputable def exactValue (x : Float) : Option EReal :=
  match Decimal.Binary.ofFloat? x with
  | some b => some b.value
  | none =>
    if x.toBits.toNat = Nat.pow 2 63 + Decimal.infinityBits then some ⊥
    else if x.toBits.toNat = Decimal.infinityBits then some ⊤
    else none

namespace NestingLimit

/-- The value of a limit as a number: an integer, a truth value as `0` or `1`, or a double's
exact value; none for a NaN limit. -/
noncomputable def value : NestingLimit → Option EReal
  | .whole n => some (n : ℝ)
  | .truth b => some (b.toNat : ℝ)
  | .real x => exactValue x

/-- One limit is at most another when both are numbers and the first is at most the second,
compared exactly; a NaN limit is comparable with no limit. -/
instance instLE : LE NestingLimit :=
  ⟨fun a b => ∃ u v, a.value = some u ∧ b.value = some v ∧ u ≤ v⟩

/-- A finite double is reached by a depth exactly when its value is at most the depth: the
replay's cross-multiplied comparison is the comparison of values. -/
theorem binary_atMost_iff (b : Decimal.Binary) (d : Nat) :
    (b.negative ||
        decide (b.significand * Nat.pow 2 b.exponent.toNat ≤ d * Nat.pow 2 (-b.exponent).toNat)) =
        true ↔
      (b.value : EReal) ≤ ((d : ℝ) : EReal) := by
  rw [EReal.coe_le_coe_iff]
  unfold Decimal.Binary.value
  cases hneg : b.negative
  · simp only [Bool.false_or, decide_eq_true_eq, Bool.false_eq_true, if_false, one_mul]
    -- `2^e` is `2^e⁺ / 2^e⁻`: clear the denominator and compare natural numbers
    have hpow : (2 : ℝ) ^ b.exponent =
        (2 : ℝ) ^ b.exponent.toNat / (2 : ℝ) ^ (-b.exponent).toNat := by
      rw [← zpow_natCast, ← zpow_natCast, ← zpow_sub₀ (by norm_num)]
      congr 1
      omega
    rw [hpow, mul_div_assoc', div_le_iff₀ (by positivity), ← Nat.cast_le (α := ℝ)]
    push_cast [Nat.pow_eq]
    exact Iff.rfl
  · simp only [Bool.true_or, if_true, true_iff]
    have hmag : (0 : ℝ) ≤ b.significand * (2 : ℝ) ^ b.exponent := by positivity
    have hd : (0 : ℝ) ≤ d := by positivity
    linarith

/-- A depth reaches a limit exactly when the limit is a number at most the depth. -/
theorem reached_iff_value_le (l : NestingLimit) (d : Nat) :
    l.reached d = true ↔ ∃ v, l.value = some v ∧ v ≤ ((d : ℝ) : EReal) := by
  cases l with
  | whole n =>
    simp only [reached, value, decide_eq_true_eq, Option.some.injEq, exists_eq_left',
      EReal.coe_le_coe_iff]
    exact_mod_cast Iff.rfl
  | truth b =>
    simp only [reached, value, decide_eq_true_eq, Option.some.injEq, exists_eq_left',
      EReal.coe_le_coe_iff]
    exact_mod_cast Iff.rfl
  | real x =>
    simp only [reached, realReached, value, exactValue]
    rcases hb : Decimal.Binary.ofFloat? x with _ | b
    · -- no finite value: only `-∞` is reached, and it is below every depth
      by_cases hbot : x.toBits.toNat = Nat.pow 2 63 + Decimal.infinityBits
      · simp [hbot]
      · by_cases htop : x.toBits.toNat = Decimal.infinityBits
        · simpa [hbot, htop] using EReal.coe_ne_top (d : ℝ)
        · simp [hbot, htop]
    · simp only [Option.some.injEq, exists_eq_left']
      exact binary_atMost_iff b d

/-- A larger limit is reached by no more depths. -/
theorem reached_of_le {l l' : NestingLimit} (hl : l ≤ l') {d : Nat}
    (h : l'.reached d = true) : l.reached d = true := by
  obtain ⟨u, v, hu, hv, huv⟩ := hl
  obtain ⟨v', hv', hd⟩ := (reached_iff_value_le l' d).1 h
  rw [hv] at hv'
  cases hv'
  exact (reached_iff_value_le l d).2 ⟨u, hu, huv.trans hd⟩

theorem whole_le_whole {m m' : Int} (h : m ≤ m') : NestingLimit.whole m ≤ .whole m' :=
  ⟨_, _, rfl, rfl, by exact_mod_cast h⟩

theorem whole_reached (m : Int) (d : Nat) : (NestingLimit.whole m).reached d = decide (m ≤ d) :=
  rfl

theorem whole_reached_of_le {m : Int} {d : Nat} (h : m ≤ d) :
    (NestingLimit.whole m).reached d = true := by
  rw [whole_reached]
  exact decide_eq_true h

/-- An integer limit above `b` leaves every depth up to `b` clear. -/
theorem whole_clear {m : Int} (a : Nat) {b : Nat} (h : (b : Int) < m) :
    (NestingLimit.whole m).Clear a b := by
  intro j _ hj
  rw [whole_reached]
  exact decide_eq_false (by omega)

/-- The limit no depth reaches: `+∞`. -/
def unbounded : NestingLimit := .real (1.0 / 0.0)

theorem unbounded_reached (d : Nat) : unbounded.reached d = false := by
  have hinf : Decimal.Binary.ofFloat? (1.0 / 0.0) = none := by decide
  simp only [unbounded, reached, realReached, hinf]
  decide

end NestingLimit

/-! ## Outcomes that are not refusals of one kind -/

section FailsOn

variable {ε α β : Type}

/-- An outcome that is a failure with the property `p`. -/
def FailsOn (p : ε → Prop) (o : Except ε α) : Prop := ∃ e, o = .error e ∧ p e

theorem not_failsOn_ok (p : ε → Prop) (a : α) : ¬ FailsOn p (Except.ok a : Except ε α) := by
  rintro ⟨e, h, -⟩
  cases h

theorem failsOn_error (p : ε → Prop) (e : ε) :
    FailsOn p (Except.error e : Except ε α) ↔ p e := by
  constructor
  · rintro ⟨_, he, hp⟩
    cases he
    exact hp
  · exact fun hp => ⟨e, rfl, hp⟩

theorem failsOn_map {p : ε → Prop} {f : α → β} {m : Except ε α} :
    FailsOn p (f <$> m) ↔ FailsOn p m := by
  cases m with
  | ok a =>
    exact ⟨fun h => absurd h (not_failsOn_ok p _), fun h => absurd h (not_failsOn_ok p a)⟩
  | error e => rw [map_error, failsOn_error, failsOn_error]

/-- Two sequences agree when they fail on no `p`, provided each step of the second agrees with the
corresponding step of the first whenever that step fails on no `p`. -/
theorem bind_congr_of_not_failsOn {p : ε → Prop} {m m' : Except ε α}
    {k k' : α → Except ε β} (hm : ¬ FailsOn p m → m' = m)
    (hk : ∀ a, m = .ok a → ¬ FailsOn p (k a) → k' a = k a) (h : ¬ FailsOn p (m >>= k)) :
    (m' >>= k') = (m >>= k) := by
  cases m with
  | error e =>
    rw [error_bind, failsOn_error] at h
    rw [hm (by rwa [failsOn_error]), error_bind, error_bind]
  | ok a =>
    rw [hm (not_failsOn_ok p a), ok_bind, ok_bind]
    exact hk a rfl h

/-- A sequence fails on no `p` when its first step does not and no continuation of a success
does. -/
theorem not_failsOn_bind {p : ε → Prop} {m : Except ε α} {k : α → Except ε β}
    (hm : ¬ FailsOn p m) (hk : ∀ a, m = .ok a → ¬ FailsOn p (k a)) :
    ¬ FailsOn p (m >>= k) := by
  cases m with
  | error e =>
    rw [error_bind, failsOn_error]
    rwa [failsOn_error] at hm
  | ok a =>
    rw [ok_bind]
    exact hk a rfl

/-- Outcomes under integer limits, where a larger limit changes nothing of an outcome that does
not fail on `p`, every limit up to `0` fails on `p` and some limit does not: they have a
threshold, below which they fail on `p` and from which on they are all the same. -/
theorem threshold_of_monotone {p : ε → Prop} (F : Int → Except ε α)
    (hmono : ∀ m m', m ≤ m' → ¬ FailsOn p (F m) → F m' = F m)
    (hlow : ∀ m, m ≤ 0 → FailsOn p (F m)) (hhigh : ∃ k : Nat, ¬ FailsOn p (F k)) :
    ∃ T : Int, ∀ m, (FailsOn p (F m) ↔ m < T) ∧ (T ≤ m → F m = F T) := by
  classical
  -- the least natural limit that gets through
  have hT := Nat.find_spec hhigh
  have hup : ∀ m : Int, (Nat.find hhigh : Int) ≤ m → F m = F (Nat.find hhigh) :=
    fun m hm => hmono _ m hm hT
  refine ⟨Nat.find hhigh, fun m => ⟨⟨fun hf => ?_, fun hm => ?_⟩, hup m⟩⟩
  · by_contra hle
    exact hT (hup m (by omega) ▸ hf)
  · by_cases h0 : m ≤ 0
    · exact hlow m h0
    · have hk := Nat.find_min hhigh (show m.toNat < Nat.find hhigh by omega)
      rw [not_not, show ((m.toNat : Nat) : Int) = m by omega] at hk
      exact hk

end FailsOn

/-! ## The compiler when nesting is no concern -/

/-- The instruction a binary operator compiles to: the chain operators and `^`. -/
def binaryOp? (op : String) : Option BinOp :=
  match chainOp? op with
  | some o => some o
  | none => if op = "^" then some .pow else none

/-- The instruction a call compiles to, with the number of arguments its function takes. -/
def callOp? (name : String) : Option (Instr Float × Nat) :=
  match unaryFunction? name with
  | some o => some (.unary o, 1)
  | none => if name = "pow" then some (.binary .pow, 2) else none

mutual

/-- The code of a tree over `n` declared variables by every check of the compiler but the
nesting depth, in the compiler's order: a node's own checks, then its operands left to right,
then its instruction. -/
def Expr.emit (n : Int) : Expr → Except CompileError (List (Instr Float))
  | .num v => .ok [.push v]
  | .constant v =>
    match v.toReal with
    | .ok x => .ok [.push x]
    | .error a => .error (.unreadable a)
  | .var i _ => if 0 ≤ i ∧ i < n then .ok [.load i] else .error (.indexOutOfRange i n)
  | .binary op l r =>
    match binaryOp? op with
    | some o => do
      let left ← l.emit n
      let right ← r.emit n
      pure (left ++ right ++ [.binary o])
    | none => .error (.unknownBinary op)
  | .unary op a =>
    if op = "-" then do
      let code ← a.emit n
      pure (code ++ [.unary .neg])
    else .error (.unknownUnary op)
  | .call name args =>
    match callOp? name with
    | some (i, k) =>
      if args.length = k then do
        let code ← Expr.emitAll n args
        pure (code ++ [i])
      else .error (.arity name k)
    | none => .error (.unknownFunction name)
  | .foreign t => .error (.unknownNode t)

/-- The code of a list of trees, left to right. -/
def Expr.emitAll (n : Int) : List Expr → Except CompileError (List (Instr Float))
  | [] => .ok []
  | e :: es => do
    let first ← e.emit n
    let rest ← Expr.emitAll n es
    pure (first ++ rest)

end

theorem binaryOp_of_chainOp {op : String} {o : BinOp} (h : chainOp? op = some o) :
    binaryOp? op = some o := by
  simp [binaryOp?, h]

theorem binaryOp_of_not_chainOp {op : String} (h : chainOp? op = none) :
    binaryOp? op = if op = "^" then some .pow else none := by
  simp [binaryOp?, h]

theorem callOp_of_unaryFunction {name : String} {o : UnOp} (h : unaryFunction? name = some o) :
    callOp? name = some (.unary o, 1) := by
  simp [callOp?, h]

theorem callOp_of_not_unaryFunction {name : String} (h : unaryFunction? name = none) :
    callOp? name = if name = "pow" then some (.binary .pow, 2) else none := by
  simp [callOp?, h]

/-! ## One equation per outcome of the depth check -/

section DepthCheck

variable (c : Compiler) {d : Nat} (e : Expr)

theorem Compiler.node_deep (hd : c.limit.reached d = true) :
    c.node d e = .error (.tooDeep c.limit) := by
  unfold Compiler.node
  rw [if_pos hd]

/-- A node whose compilation is not refused for nesting was entered below the limit. -/
theorem Compiler.reached_of_shallow (h : ¬ FailsOn (·.kind = ErrorKind.resource) (c.node d e)) :
    c.limit.reached d = false := by
  cases hd : c.limit.reached d
  · rfl
  · exact absurd ⟨_, c.node_deep e hd, rfl⟩ h

end DepthCheck

/-! ## A larger limit keeps every result not refused for nesting -/

section Monotone

variable {c c' : Compiler}

mutual

/-- A node whose compilation is not refused for nesting compiles the same under a limit that
depths reach no more often: every depth check it made passes there too. -/
theorem Compiler.node_limit (harity : c'.arity = c.arity)
    (hlimit : ∀ d, c'.limit.reached d = true → c.limit.reached d = true) (d : Nat) (e : Expr)
    (h : ¬ FailsOn (·.kind = ErrorKind.resource) (c.node d e)) : c'.node d e = c.node d e := by
  have hd := c.reached_of_shallow e h
  have hd' : c'.limit.reached d = false := by
    cases hr : c'.limit.reached d
    · rfl
    · rw [hlimit d hr] at hd
      cases hd
  unfold Compiler.node at h ⊢
  simp only [hd, hd', Bool.false_eq_true, if_false] at h ⊢
  -- both compilers enter the node and take the branch its form selects
  cases e with
  | num v => rfl
  | constant v => rfl
  | var i name => rw [harity]
  | binary op l r =>
    dsimp only at h ⊢
    rcases ho : chainOp? op with _ | o
    · simp only [ho] at h ⊢
      by_cases hop : op = "^"
      · simp only [if_pos hop] at h ⊢
        exact bind_congr_of_not_failsOn (Compiler.node_limit harity hlimit (d + 1) l)
          (fun _ _ hk => bind_congr_of_not_failsOn (Compiler.node_limit harity hlimit (d + 1) r)
            (fun _ _ _ => rfl) hk) h
      · rw [if_neg hop, if_neg hop]
    · simp only [ho] at h ⊢
      exact bind_congr_of_not_failsOn (Compiler.chain_limit harity hlimit d l)
        (fun _ _ hk => bind_congr_of_not_failsOn (Compiler.node_limit harity hlimit (d + 1) r)
          (fun _ _ _ => rfl) hk) h
  | unary op a =>
    dsimp only at h ⊢
    by_cases hop : op = "-"
    · simp only [if_pos hop] at h ⊢
      exact bind_congr_of_not_failsOn (Compiler.node_limit harity hlimit (d + 1) a)
        (fun _ _ _ => rfl) h
    · rw [if_neg hop, if_neg hop]
  | call name args =>
    dsimp only at h ⊢
    rcases ho : unaryFunction? name with _ | o
    · simp only [ho] at h ⊢
      by_cases hpow : name = "pow"
      · by_cases hlen : args.length = 2
        · simp only [hpow, hlen, if_true] at h ⊢
          exact bind_congr_of_not_failsOn (Compiler.nodes_limit harity hlimit (d + 1) args)
            (fun _ _ _ => rfl) h
        · simp only [hpow, hlen, if_true, if_false]
      · simp only [hpow, if_false]
    · simp only [ho] at h ⊢
      by_cases hlen : args.length = 1
      · simp only [if_pos hlen] at h ⊢
        exact bind_congr_of_not_failsOn (Compiler.nodes_limit harity hlimit (d + 1) args)
          (fun _ _ _ => rfl) h
      · rw [if_neg hlen, if_neg hlen]
  | foreign t => rfl
termination_by 2 * sizeOf e
decreasing_by
  all_goals
    subst_vars
    simp only [Expr.binary.sizeOf_spec, Expr.unary.sizeOf_spec, Expr.call.sizeOf_spec]
    omega

/-- So does the left operand of a chain. -/
theorem Compiler.chain_limit (harity : c'.arity = c.arity)
    (hlimit : ∀ d, c'.limit.reached d = true → c.limit.reached d = true) (d : Nat) (e : Expr)
    (h : ¬ FailsOn (·.kind = ErrorKind.resource) (c.chain d e)) : c'.chain d e = c.chain d e := by
  unfold Compiler.chain at h ⊢
  cases e with
  | binary op l r =>
    dsimp only at h ⊢
    rcases ho : chainOp? op with _ | o
    · simp only [ho] at h ⊢
      exact Compiler.node_limit harity hlimit (d + 1) _ h
    · simp only [ho] at h ⊢
      exact bind_congr_of_not_failsOn (Compiler.chain_limit harity hlimit d l)
        (fun _ _ hk => bind_congr_of_not_failsOn (Compiler.node_limit harity hlimit (d + 1) r)
          (fun _ _ _ => rfl) hk) h
  | _ => exact Compiler.node_limit harity hlimit (d + 1) _ h
termination_by 2 * sizeOf e + 1
decreasing_by
  all_goals
    subst_vars
    try simp only [Expr.binary.sizeOf_spec]
    omega

/-- And so does a list of nodes. -/
theorem Compiler.nodes_limit (harity : c'.arity = c.arity)
    (hlimit : ∀ d, c'.limit.reached d = true → c.limit.reached d = true) (d : Nat)
    (es : List Expr) (h : ¬ FailsOn (·.kind = ErrorKind.resource) (c.nodes d es)) :
    c'.nodes d es = c.nodes d es := by
  cases es with
  | nil =>
    rw [Compiler.nodes, Compiler.nodes]
  | cons e es =>
    rw [Compiler.nodes] at h
    rw [Compiler.nodes, Compiler.nodes]
    exact bind_congr_of_not_failsOn (Compiler.node_limit harity hlimit d e)
      (fun _ _ hk => bind_congr_of_not_failsOn (Compiler.nodes_limit harity hlimit d es)
        (fun _ _ _ => rfl) hk) h
termination_by 2 * sizeOf es
decreasing_by
  all_goals
    subst_vars
    simp only [List.cons.sizeOf_spec]
    omega

end

end Monotone

/-! ## Below the limit the compiler is the emitter -/

mutual

/-- With every depth it checks below the limit, the compiler returns what the emitter returns. -/
theorem Compiler.node_eq_emit (c : Compiler) (d : Nat) (e : Expr)
    (hd : c.limit.Clear d (d + e.height false)) : c.node d e = e.emit c.arity := by
  unfold Compiler.node
  rw [if_neg (by simp [hd d (Nat.le_refl d) (Nat.le_add_right d _)])]
  cases e with
  | num v => rfl
  | constant v => rfl
  | var i name => rfl
  | binary op l r =>
    dsimp only
    rcases ho : chainOp? op with _ | o
    · -- `^` or an unknown operator: both operands one level down
      simp only [Expr.height, ho, Option.isSome_none, Bool.false_eq_true, if_false] at hd
      simp only [Expr.emit, binaryOp_of_not_chainOp ho]
      by_cases hop : op = "^"
      · simp only [if_pos hop]
        rw [Compiler.node_eq_emit c (d + 1) l (hd.mono (by omega) (by omega)),
          Compiler.node_eq_emit c (d + 1) r (hd.mono (by omega) (by omega))]
      · simp only [if_neg hop]
    · -- a chain: its left operand goes on along the chain
      have hop : (chainOp? op).isSome = true := by simp [ho]
      rw [Expr.height_link hop] at hd
      simp only [Expr.emit, binaryOp_of_chainOp ho]
      rw [Compiler.chain_eq_emit c d l (hd.mono (by omega) (by omega)),
        Compiler.node_eq_emit c (d + 1) r (hd.mono (by omega) (by omega))]
  | unary op a =>
    dsimp only
    simp only [Expr.height] at hd
    simp only [Expr.emit]
    by_cases hop : op = "-"
    · simp only [if_pos hop]
      rw [Compiler.node_eq_emit c (d + 1) a (hd.mono (by omega) (by omega))]
    · simp only [if_neg hop]
  | call name args =>
    dsimp only
    -- the arguments sit one level below the call
    have hargs : ∀ a ∈ args, c.limit.Clear (d + 1) (d + 1 + a.height false) := fun a ha =>
      hd.mono (by omega) (by have := Expr.height_le_heightOfArgs ha; simp only [Expr.height]; omega)
    simp only [Expr.emit]
    rcases ho : unaryFunction? name with _ | o
    · simp only [callOp_of_not_unaryFunction ho]
      by_cases hpow : name = "pow"
      · simp only [if_pos hpow]
        split
        · rw [Compiler.nodes_eq_emitAll c (d + 1) args hargs]
        · rfl
      · simp only [if_neg hpow]
    · simp only [callOp_of_unaryFunction ho]
      split
      · rw [Compiler.nodes_eq_emitAll c (d + 1) args hargs]
      · rfl
  | foreign t => rfl
termination_by 2 * sizeOf e
decreasing_by
  all_goals
    subst_vars
    simp only [Expr.binary.sizeOf_spec, Expr.unary.sizeOf_spec, Expr.call.sizeOf_spec]
    omega

/-- The left operand of a chain, with every depth from one level below the chain's top clear,
compiles as the emitter says. -/
theorem Compiler.chain_eq_emit (c : Compiler) (d : Nat) (e : Expr)
    (hd : c.limit.Clear (d + 1) (d + 1 + e.height true)) : c.chain d e = e.emit c.arity := by
  unfold Compiler.chain
  cases e with
  | binary op l r =>
    dsimp only
    rcases ho : chainOp? op with _ | o
    · rw [Expr.height_spine_of_not_link (fun op' l' r' h => by cases h; exact ho)] at hd
      exact Compiler.node_eq_emit c (d + 1) _ hd
    · -- the chain goes on: all its operands sit one level below its top
      have hop : (chainOp? op).isSome = true := by simp [ho]
      rw [Expr.height_link_spine hop] at hd
      simp only [Expr.emit, binaryOp_of_chainOp ho]
      rw [Compiler.chain_eq_emit c d l (hd.mono (by omega) (by omega)),
        Compiler.node_eq_emit c (d + 1) r (hd.mono (by omega) (by omega))]
  | _ =>
    exact Compiler.node_eq_emit c (d + 1) _
      (by rwa [Expr.height_spine_of_not_link (fun _ _ _ h => by cases h)] at hd)
termination_by 2 * sizeOf e + 1
decreasing_by
  all_goals
    subst_vars
    try simp only [Expr.binary.sizeOf_spec]
    omega

theorem Compiler.nodes_eq_emitAll (c : Compiler) (d : Nat) (es : List Expr)
    (hd : ∀ a ∈ es, c.limit.Clear d (d + a.height false)) :
    c.nodes d es = Expr.emitAll c.arity es := by
  cases es with
  | nil => rw [Compiler.nodes, Expr.emitAll]
  | cons e es =>
    rw [Compiler.nodes, Expr.emitAll, Compiler.node_eq_emit c d e (hd e (by simp)),
      Compiler.nodes_eq_emitAll c d es (fun a ha => hd a (by simp [ha]))]
termination_by 2 * sizeOf es
decreasing_by
  all_goals
    subst_vars
    simp only [List.cons.sizeOf_spec]
    omega

end

mutual

/-- The emitter refuses only for what a tree holds, never for its nesting. -/
theorem Expr.emit_error_kind (n : Int) (e : Expr) {err : CompileError}
    (h : e.emit n = .error err) : err.kind = .semantic := by
  cases e with
  | num v => cases h
  | constant v =>
    simp only [Expr.emit] at h
    split at h
    · cases h
    · cases h
      rfl
  | var i name =>
    simp only [Expr.emit] at h
    split at h
    · cases h
    · cases h
      rfl
  | binary op l r =>
    simp only [Expr.emit] at h
    split at h
    · rcases bind_eq_error.1 h with h | ⟨_, -, h⟩
      · exact Expr.emit_error_kind n l h
      · rcases bind_eq_error.1 h with h | ⟨_, -, h⟩
        · exact Expr.emit_error_kind n r h
        · cases h
    · cases h
      rfl
  | unary op a =>
    simp only [Expr.emit] at h
    split at h
    · rcases bind_eq_error.1 h with h | ⟨_, -, h⟩
      · exact Expr.emit_error_kind n a h
      · cases h
    · cases h
      rfl
  | call name args =>
    simp only [Expr.emit] at h
    split at h
    · split at h
      · rcases bind_eq_error.1 h with h | ⟨_, -, h⟩
        · exact Expr.emitAll_error_kind n args h
        · cases h
      · cases h
        rfl
    · cases h
      rfl
  | foreign t =>
    cases h
    rfl
termination_by sizeOf e
decreasing_by
  all_goals
    subst_vars
    simp only [Expr.binary.sizeOf_spec, Expr.unary.sizeOf_spec, Expr.call.sizeOf_spec]
    omega

theorem Expr.emitAll_error_kind (n : Int) (es : List Expr) {err : CompileError}
    (h : Expr.emitAll n es = .error err) : err.kind = .semantic := by
  cases es with
  | nil => cases h
  | cons e es =>
    rw [Expr.emitAll] at h
    rcases bind_eq_error.1 h with h | ⟨_, -, h⟩
    · exact Expr.emit_error_kind n e h
    · rcases bind_eq_error.1 h with h | ⟨_, -, h⟩
      · exact Expr.emitAll_error_kind n es h
      · cases h
termination_by sizeOf es
decreasing_by
  all_goals
    subst_vars
    simp only [List.cons.sizeOf_spec]
    omega

end

theorem Expr.emit_shallow (n : Int) (e : Expr) :
    ¬ FailsOn (·.kind = ErrorKind.resource) (e.emit n) := by
  rintro ⟨err, h, hk⟩
  rw [Expr.emit_error_kind n e h] at hk
  cases hk

/-- A compilation not refused for nesting is the emitter's: compare it with the limit no depth
reaches, under which the compiler is the emitter. -/
theorem Compiler.node_eq_emit_of_shallow (c : Compiler) (d : Nat) (e : Expr)
    (h : ¬ FailsOn (·.kind = ErrorKind.resource) (c.node d e)) : c.node d e = e.emit c.arity := by
  have hfree : ∀ j, (NestingLimit.unbounded).reached j = true → c.limit.reached j = true :=
    fun j hj => by rw [NestingLimit.unbounded_reached] at hj; cases hj
  rw [← @Compiler.node_limit c ⟨c.arity, .unbounded⟩ rfl hfree d e h]
  exact Compiler.node_eq_emit ⟨c.arity, .unbounded⟩ d e
    (fun j _ _ => NestingLimit.unbounded_reached j)

/-! ## Compiling a whole tree -/

section Compile

variable {e : Expr} {n : Int}

theorem Expr.compile_failsOn {p : CompileError → Prop} {limit : NestingLimit} :
    FailsOn p (e.compile n limit) ↔ FailsOn p ((Compiler.mk n limit).node 0 e) := by
  unfold Expr.compile
  constructor
  · rintro ⟨err, h, hp⟩
    rcases bind_eq_error.1 h with h | ⟨_, -, h⟩
    · exact ⟨err, h, hp⟩
    · cases h
  · rintro ⟨err, h, hp⟩
    exact ⟨err, by rw [h]; rfl, hp⟩

/-- A compilation not refused for nesting gives the same result under every larger limit. -/
theorem Expr.compile_limit {limit limit' : NestingLimit} (hl : limit ≤ limit')
    (h : ¬ FailsOn (·.kind = ErrorKind.resource) (e.compile n limit)) :
    e.compile n limit' = e.compile n limit := by
  unfold Expr.compile at h ⊢
  exact bind_congr_of_not_failsOn
    (@Compiler.node_limit ⟨n, limit⟩ ⟨n, limit'⟩ rfl
      (fun _ => NestingLimit.reached_of_le hl) 0 e)
    (fun _ _ _ => rfl) h

/-- Every tree has a threshold: an integer limit below it refuses the tree for nesting, and every
limit from it on compiles the tree to the same result. -/
theorem Expr.compile_threshold (e : Expr) (n : Int) :
    ∃ T : Int, ∀ m : Int,
      (FailsOn (·.kind = ErrorKind.resource) (e.compile n (.whole m)) ↔ m < T) ∧
        (T ≤ m → e.compile n (.whole m) = e.compile n (.whole T)) := by
  refine threshold_of_monotone (fun m => e.compile n (.whole m))
    (fun m m' hm hf => Expr.compile_limit (NestingLimit.whole_le_whole hm) hf)
    (fun m hm => ?_) ⟨e.height false + 1, fun hf => ?_⟩
  · -- a limit up to `0` refuses the root
    rw [Expr.compile_failsOn]
    exact ⟨_, Compiler.node_deep _ e (NestingLimit.whole_reached_of_le (by omega)), rfl⟩
  · -- a limit above the compiler's height lets the tree through
    rw [Expr.compile_failsOn,
      Compiler.node_eq_emit _ 0 e (NestingLimit.whole_clear 0 (by omega))] at hf
    exact Expr.emit_shallow n e hf

end Compile

end ScalarDiff
