import ScalarDiff.Bytecode.Compile
import ScalarDiff.Machine
import ScalarDiff.Proofs.Outcome

/-!
# Compiled code computes what the tree means

A tree is given its meaning directly, node by node (`ScalarDiff.Expr.eval`): numbers and
variables are their values, and each operator and function acts on the values of its operands
with the arithmetic of doubles, after the domain checks of division, logarithm and square root.
When several operations fail, the first one in post-order wins, operands left to right. A tree
whose nodes the language does not have (an unknown operator or function, a call with the wrong
number of arguments, a variable outside the point, a number that reads as no double) has no
meaning at all.

The main statement, `run_compile`, is that a compiled tree run by the machine gives exactly the
tree's meaning: the same double bit for bit, or the same failure. Its proof rests on one notion,
`ScalarDiff.Computes`: a piece of code computes an outcome when, run before any code on any
stack, it leaves the value on top of the stack and goes on, or stops with the failure. Every
node's code computes the node's meaning, including the flattened `+ - * /` chains, whose code
is the code of their left spine followed by each right operand and its operator.
-/

namespace ScalarDiff

/-! ## Meaning of trees -/

/-- What a binary operator written `op` does to two doubles, if the language has it. -/
def binaryMeaning? (op : String) : Option (Float → Float → Except EvalError Float) :=
  match op with
  | "+" => some fun a b => .ok (a + b)
  | "-" => some fun a b => .ok (a - b)
  | "*" => some fun a b => .ok (a * b)
  | "/" => some fun a b => if b == 0.0 then .error .divisionByZero else .ok (a / b)
  | "^" => some fun a b => .ok (Float.pow a b)
  | _ => none

/-- What a function of one argument named `name` does to a double, if the language has it. -/
def unaryMeaning? (name : String) : Option (Float → Except EvalError Float) :=
  match name with
  | "sin" => some fun a => .ok (Float.sin a)
  | "cos" => some fun a => .ok (Float.cos a)
  | "tan" => some fun a => .ok (Float.tan a)
  | "exp" => some fun a => .ok (Float.exp a)
  | "abs" => some fun a => .ok (Float.abs a)
  | "log" => some fun a =>
    if a ≤ 0.0 then .error (.logNonPositive a.text) else .ok (Float.log a)
  | "sqrt" => some fun a =>
    if a < 0.0 then .error (.sqrtNegative a.text) else .ok (Float.sqrt a)
  | _ => none

/-- The meaning of a tree at a point: `none` for a tree the language does not have, else the
value or the failure of the first operation in post-order that leaves its domain. -/
def Expr.eval (x : List Float) : Expr → Option (Except EvalError Float)
  | .num v => some (.ok v)
  | .constant d =>
    match d.toReal with
    | .ok v => some (.ok v)
    | .error _ => none
  | .var i _ => (inputAt? x i).map .ok
  | .binary op l r => do
    let f ← binaryMeaning? op
    let a ← eval x l
    let b ← eval x r
    pure (a >>= fun u => b >>= fun v => f u v)
  | .unary op a => do
    if op = "-" then
      let u ← eval x a
      pure (u >>= fun p => .ok (-p))
    else none
  | .call name [a] => do
    let f ← unaryMeaning? name
    let u ← eval x a
    pure (u >>= f)
  | .call name [a, b] => do
    if name = "pow" then
      let u ← eval x a
      let v ← eval x b
      pure (u >>= fun p => v >>= fun q => .ok (Float.pow p q))
    else none
  | .call _ _ => none
  | .foreign _ => none

example : (Expr.binary "-" (.num 1.0) (.var 0 "x")).eval [2.0] = some (.ok (-1.0)) := rfl

/-! ## The operators of trees are the operations of the machine -/

/-- A function on doubles agrees with a binary operation of the machine, failures reported. -/
def ImplementsBinary (f : Float → Float → Except EvalError Float) (o : BinOp) : Prop :=
  ∀ a b, (f a b).mapError Failure.reported = o.apply a b

/-- A function on doubles agrees with a unary operation of the machine, failures reported. -/
def ImplementsUnary (f : Float → Except EvalError Float) (o : UnOp) : Prop :=
  ∀ a, (f a).mapError Failure.reported = o.apply a

theorem binaryMeaning_of_chainOp {op : String} {o : BinOp} (h : chainOp? op = some o) :
    ∃ f, binaryMeaning? op = some f ∧ ImplementsBinary f o := by
  unfold chainOp? at h
  split at h <;> cases h
  all_goals refine ⟨_, rfl, fun a b => ?_⟩
  case h_4 =>
    by_cases hb : (b == 0.0) = true
    · simp [BinOp.apply, Scalar.isZero, hb, Failure.report]
    · simp [BinOp.apply, Scalar.isZero, Scalar.div, hb, Failure.lift]
  all_goals rfl

theorem power_implements : ImplementsBinary (fun a b => .ok (Float.pow a b)) .pow :=
  fun _ _ => rfl

theorem negation_implements : ImplementsUnary (fun p => .ok (-p)) .neg := fun _ => rfl

theorem unaryMeaning_of_unaryFunction {name : String} {o : UnOp}
    (h : unaryFunction? name = some o) :
    ∃ f, unaryMeaning? name = some f ∧ ImplementsUnary f o := by
  unfold unaryFunction? at h
  split at h <;> cases h
  all_goals refine ⟨_, rfl, fun a => ?_⟩
  case h_5 =>
    by_cases ha : a ≤ 0.0
    · simp [UnOp.apply, Scalar.atMostZero, Scalar.spelled, ha, Failure.report]
    · simp [UnOp.apply, Scalar.atMostZero, Scalar.log, ha]
  case h_6 =>
    by_cases ha : a < 0.0
    · simp [UnOp.apply, Scalar.belowZero, Scalar.spelled, ha, Failure.report]
    · simp [UnOp.apply, Scalar.belowZero, Scalar.sqrt, ha]
  all_goals rfl

/-! ## Code that computes an outcome -/

variable (x : List Float)

/-- Code computes an outcome when, run before any code `rest` on any stack, it pushes the value
and goes on with `rest`, or stops with the failure. -/
def Computes (code : List (Instr Float)) (r : Except EvalError Float) : Prop :=
  ∀ rest s, Machine.run x (code ++ rest) s =
    r.mapError Failure.reported >>= fun v => Machine.run x rest (v :: s)

theorem computes_push (v : Float) : Computes x [.push v] (.ok v) := by
  intro rest s
  simp [Machine.run_cons_of_ne_ret, Machine.step]

theorem computes_load {i : Int} {v : Float} (h : inputAt? x i = some v) :
    Computes x [.load i] (.ok v) := by
  intro rest s
  simp [Machine.run_cons_of_ne_ret, Machine.step, h]

theorem computes_binary {left right : List (Instr Float)} {a b : Except EvalError Float}
    {f : Float → Float → Except EvalError Float} {o : BinOp}
    (ha : Computes x left a) (hb : Computes x right b) (hf : ImplementsBinary f o) :
    Computes x (left ++ right ++ [.binary o]) (a >>= fun u => b >>= fun v => f u v) := by
  intro rest s
  rw [List.append_assoc, List.append_assoc, ha]
  cases a with
  | error e => rfl
  | ok u =>
    rw [mapError_ok, ok_bind, ok_bind, hb]
    cases b with
    | error e => rfl
    | ok v =>
      rw [mapError_ok, ok_bind, ok_bind, List.singleton_append,
        Machine.run_cons_of_ne_ret _ (by simp), Machine.step, ← hf u v]
      cases f u v <;> rfl

theorem computes_unary {code : List (Instr Float)} {a : Except EvalError Float}
    {f : Float → Except EvalError Float} {o : UnOp}
    (ha : Computes x code a) (hf : ImplementsUnary f o) :
    Computes x (code ++ [.unary o]) (a >>= f) := by
  intro rest s
  rw [List.append_assoc, ha]
  cases a with
  | error e => rfl
  | ok u =>
    rw [mapError_ok, ok_bind, ok_bind, List.singleton_append,
      Machine.run_cons_of_ne_ret _ (by simp), Machine.step, ← hf u]
    cases f u <;> rfl

theorem inputAt_of_lt {i : Int} (h0 : 0 ≤ i) (h1 : i < x.length) : ∃ v, inputAt? x i = some v :=
  ⟨x[i.toNat], by simp [inputAt?, h0]⟩

/-! ## Every compiled tree computes its meaning -/

theorem Compiler.nodes_nil (c : Compiler) (d : Nat) : c.nodes d [] = .ok [] := by
  rw [Compiler.nodes]

/-- The code of a list of nodes is the code of the first followed by the code of the others. -/
theorem Compiler.nodes_cons_eq_ok {c : Compiler} {d : Nat} {e : Expr} {es : List Expr}
    {code : List (Instr Float)} :
    c.nodes d (e :: es) = .ok code ↔
      ∃ first rest, c.node d e = .ok first ∧ c.nodes d es = .ok rest ∧ code = first ++ rest := by
  rw [Compiler.nodes]
  constructor
  · intro h
    obtain ⟨first, hfirst, h⟩ := bind_eq_ok.1 h
    obtain ⟨rest, hrest, h⟩ := bind_eq_ok.1 h
    exact ⟨first, rest, hfirst, hrest, (Except.ok.inj h).symm⟩
  · rintro ⟨first, rest, hfirst, hrest, rfl⟩
    rw [hfirst, hrest]
    rfl

/-- One link of a chain: the left operand's code, the right operand's code and the link's
operator compute the link's meaning. -/
theorem link_computes {op : String} {o : BinOp} {l r : Expr} {left right : List (Instr Float)}
    (ho : chainOp? op = some o) (hl : ∃ a, l.eval x = some a ∧ Computes x left a)
    (hr : ∃ b, r.eval x = some b ∧ Computes x right b) :
    ∃ s, (Expr.binary op l r).eval x = some s ∧ Computes x (left ++ right ++ [.binary o]) s := by
  obtain ⟨a, hea, ha⟩ := hl
  obtain ⟨b, heb, hb⟩ := hr
  obtain ⟨f, hf, himp⟩ := binaryMeaning_of_chainOp ho
  exact ⟨_, by simp [Expr.eval, hf, hea, heb], computes_binary x ha hb himp⟩

mutual

/-- The code of a node computes the node's meaning. -/
theorem node_computes (c : Compiler) (hx : (x.length : Int) = c.arity) (d : Nat) (e : Expr)
    {code : List (Instr Float)} (h : c.node d e = .ok code) :
    ∃ r, e.eval x = some r ∧ Computes x code r := by
  unfold Compiler.node at h
  split at h
  · cases h
  cases e with
  | num v =>
    cases h
    exact ⟨_, rfl, computes_push x v⟩
  | constant v =>
    simp only at h
    split at h
    · rename_i y hy
      cases h
      exact ⟨_, by simp [Expr.eval, hy], computes_push x y⟩
    · cases h
  | var i name =>
    simp only at h
    split at h
    · rename_i hi
      cases h
      obtain ⟨v, hv⟩ := inputAt_of_lt x hi.1 (hx ▸ hi.2)
      exact ⟨_, by simp [Expr.eval, hv], computes_load x hv⟩
    · cases h
  | binary op l r =>
    simp only at h
    split at h
    · rename_i o ho
      obtain ⟨left, hl, h⟩ := bind_eq_ok.1 h
      obtain ⟨right, hr, h⟩ := bind_eq_ok.1 h
      cases h
      exact link_computes x ho (chain_computes c hx d l hl) (node_computes c hx (d + 1) r hr)
    · split at h
      · rename_i hop
        subst hop
        obtain ⟨left, hl, h⟩ := bind_eq_ok.1 h
        obtain ⟨right, hr, h⟩ := bind_eq_ok.1 h
        cases h
        obtain ⟨a, hea, ha⟩ := node_computes c hx (d + 1) l hl
        obtain ⟨b, heb, hb⟩ := node_computes c hx (d + 1) r hr
        exact ⟨_, by simp [Expr.eval, binaryMeaning?, hea, heb],
          computes_binary x ha hb power_implements⟩
      · cases h
  | unary op a =>
    simp only at h
    split at h
    · rename_i hop
      subst hop
      obtain ⟨code', ha', h⟩ := bind_eq_ok.1 h
      cases h
      obtain ⟨u, heu, hu⟩ := node_computes c hx (d + 1) a ha'
      exact ⟨_, by simp [Expr.eval, heu], computes_unary x hu negation_implements⟩
    · cases h
  | call name args =>
    simp only at h
    split at h
    · rename_i o ho
      split at h
      · rename_i hlen
        obtain ⟨a, rfl⟩ := List.length_eq_one_iff.1 hlen
        obtain ⟨code', ha', h⟩ := bind_eq_ok.1 h
        cases h
        obtain ⟨codeA, _, ha, hnil, rfl⟩ := Compiler.nodes_cons_eq_ok.1 ha'
        cases Compiler.nodes_nil c (d + 1) ▸ hnil
        obtain ⟨u, heu, hu⟩ := node_computes c hx (d + 1) a ha
        obtain ⟨f, hf, himp⟩ := unaryMeaning_of_unaryFunction ho
        refine ⟨u >>= f, by simp [Expr.eval, hf, heu], ?_⟩
        simpa using computes_unary x hu himp
      · cases h
    · split at h
      · rename_i hname
        subst hname
        split at h
        · rename_i hlen
          obtain ⟨a, b, rfl⟩ : ∃ a b, args = [a, b] := by
            match args, hlen with
            | [a, b], _ => exact ⟨a, b, rfl⟩
          obtain ⟨code', hargs, h⟩ := bind_eq_ok.1 h
          cases h
          obtain ⟨codeA, codeB', ha, hrest, rfl⟩ := Compiler.nodes_cons_eq_ok.1 hargs
          obtain ⟨codeB, _, hb, hnil, rfl⟩ := Compiler.nodes_cons_eq_ok.1 hrest
          cases Compiler.nodes_nil c (d + 1) ▸ hnil
          obtain ⟨u, heu, hu⟩ := node_computes c hx (d + 1) a ha
          obtain ⟨v, hev, hv⟩ := node_computes c hx (d + 1) b hb
          refine ⟨u >>= fun p => v >>= fun q => .ok (Float.pow p q),
            by simp [Expr.eval, heu, hev], ?_⟩
          simpa using computes_binary x hu hv power_implements
        · cases h
      · cases h
  | foreign t => cases h
termination_by 2 * sizeOf e
decreasing_by
  all_goals
    subst_vars
    simp only [Expr.binary.sizeOf_spec, Expr.unary.sizeOf_spec, Expr.call.sizeOf_spec,
      List.cons.sizeOf_spec]
    omega

/-- The code of the left operand of a chain computes the operand's meaning. -/
theorem chain_computes (c : Compiler) (hx : (x.length : Int) = c.arity) (d : Nat) (e : Expr)
    {code : List (Instr Float)} (h : c.chain d e = .ok code) :
    ∃ r, e.eval x = some r ∧ Computes x code r := by
  unfold Compiler.chain at h
  split at h
  · rename_i op l r
    split at h
    · rename_i o ho
      obtain ⟨left, hl, h⟩ := bind_eq_ok.1 h
      obtain ⟨right, hr, h⟩ := bind_eq_ok.1 h
      cases h
      exact link_computes x ho (chain_computes c hx d l hl) (node_computes c hx (d + 1) r hr)
    · exact node_computes c hx (d + 1) _ h
  · exact node_computes c hx (d + 1) _ h
termination_by 2 * sizeOf e + 1
decreasing_by
  all_goals
    subst_vars
    try simp only [Expr.binary.sizeOf_spec]
    omega

end

/-- A compiled tree, run by the machine on a point with one coordinate per declared variable,
gives exactly the tree's meaning: the same double, or the same failure. -/
theorem run_compile {e : Expr} {n : Int} {limit : NestingLimit} {p : Bytecode Float}
    (h : e.compile n limit = .ok p) {x : List Float} (hx : (x.length : Int) = n) :
    ∃ r, e.eval x = some r ∧ p.execute x = r.mapError Failure.reported := by
  obtain ⟨code, hcode, h⟩ := bind_eq_ok.1 h
  cases h
  obtain ⟨r, her, hr⟩ := node_computes x ⟨n, limit⟩ hx 0 e hcode
  refine ⟨r, her, ?_⟩
  rw [Bytecode.execute, if_neg (by simpa using hx), hr]
  cases r <;> rfl

theorem run_compile_division_at_zero :
    (Expr.binary "/" (.binary "-" (.var 0 "x") (.num 1.0)) (.var 0 "x")).compile 1 (.whole 100) =
      .ok ⟨[.load 0, .push 1.0, .binary .sub, .load 0, .binary .div, .ret], 1⟩ ∧
    ([0.0].length : Int) = 1 ∧
    ∃ r, (Expr.binary "/" (.binary "-" (.var 0 "x") (.num 1.0)) (.var 0 "x")).eval [0.0] = some r ∧
      (⟨[.load 0, .push 1.0, .binary .sub, .load 0, .binary .div, .ret], 1⟩ :
        Bytecode Float).execute
        [0.0] = r.mapError Failure.reported := by
  have hcompile :
      (Expr.binary "/" (.binary "-" (.var 0 "x") (.num 1.0)) (.var 0 "x")).compile 1 (.whole 100) =
        .ok ⟨[.load 0, .push 1.0, .binary .sub, .load 0, .binary .div, .ret], 1⟩ := by
    simp [Expr.compile, Compiler.node, Compiler.chain, chainOp?, NestingLimit.reached]
  exact ⟨hcompile, rfl, run_compile hcompile rfl⟩

end ScalarDiff
