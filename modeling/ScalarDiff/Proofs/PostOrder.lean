import ScalarDiff.Proofs.DepthLimit

/-!
# Compiled code is the post-order of the tree

The compiler walks a chain of `+ - * /` by a loop: it collects the chain's left spine from the
top, compiles the innermost left operand and then replays the spine from the bottom, each right
operand followed by its own link's operator. Its code is nevertheless the plain post-order of
the tree (`Expr.post`): a node's operands left to right, then the node's own instruction. A
compilation that succeeds, under any limit, is that post-order followed by one `RETURN`
(`compile_eq_post_order`).

The chain loop exists only to spend no nesting level along a chain. The plain recursion
(`Compiler.plain`) spends one on every node and otherwise checks what the compiler checks, in
the same order: a node's own checks before its children's, operands left to right. Once the limit
lies above the tree's height (`Expr.treeHeight`) neither ever refuses for nesting, and both give
the same code or the same first refusal.
-/

namespace ScalarDiff

/-! ## The post-order and the plain recursion -/

mutual

/-- The post-order of a tree: its operands' code left to right, then the node's own instruction.
A node that stands for no instruction (an operator or function the machine lacks, a datum that
reads as no double, a node that is no expression) adds none. -/
def Expr.post : Expr → List (Instr Float)
  | .num v => [.push v]
  | .constant v =>
    match v.toReal with
    | .ok x => [.push x]
    | .error _ => []
  | .var i _ => [.load i]
  | .binary op l r => l.post ++ r.post ++ ((binaryOp? op).map Instr.binary).toList
  | .unary op a => a.post ++ (if op = "-" then [.unary .neg] else [])
  | .call name args => Expr.postAll args ++ ((callOp? name).map Prod.fst).toList
  | .foreign _ => []

/-- The post-orders of a list of trees, one after the other. -/
def Expr.postAll : List Expr → List (Instr Float)
  | [] => []
  | e :: es => e.post ++ Expr.postAll es

end

mutual

/-- The height of a tree: every node one level below its parent, chain operands included. -/
def Expr.treeHeight : Expr → Nat
  | .binary _ l r => 1 + max l.treeHeight r.treeHeight
  | .unary _ a => 1 + a.treeHeight
  | .call _ args => Expr.treeHeightOfArgs args
  | _ => 0

/-- The height of a call of these arguments, each one level below the call. -/
def Expr.treeHeightOfArgs : List Expr → Nat
  | [] => 0
  | e :: es => max (1 + e.treeHeight) (Expr.treeHeightOfArgs es)

end

mutual

/-- The plain recursive compiler: a node entered at depth `d` checks the depth, then its own
operator, then compiles its operands one level down, left to right, and ends with its own
instruction. Unlike the compiler it spends a level on every link of a chain. -/
def Compiler.plain (c : Compiler) (d : Nat) (e : Expr) :
    Except CompileError (List (Instr Float)) :=
  if c.limit.reached d then .error (.tooDeep c.limit)
  else match e with
  | .num v => .ok [.push v]
  | .constant v =>
    match v.toReal with
    | .ok x => .ok [.push x]
    | .error a => .error (.unreadable a)
  | .var i _ =>
    if 0 ≤ i ∧ i < c.arity then .ok [.load i] else .error (.indexOutOfRange i c.arity)
  | .binary op l r =>
    match binaryOp? op with
    | some o => do
      let left ← c.plain (d + 1) l
      let right ← c.plain (d + 1) r
      pure (left ++ right ++ [.binary o])
    | none => .error (.unknownBinary op)
  | .unary op a =>
    if op = "-" then do
      let code ← c.plain (d + 1) a
      pure (code ++ [.unary .neg])
    else .error (.unknownUnary op)
  | .call name args =>
    match callOp? name with
    | some (i, k) =>
      if args.length = k then do
        let code ← c.plainAll (d + 1) args
        pure (code ++ [i])
      else .error (.arity name k)
    | none => .error (.unknownFunction name)
  | .foreign t => .error (.unknownNode t)

/-- The plain recursion over a list of trees at depth `d`, left to right. -/
def Compiler.plainAll (c : Compiler) (d : Nat) :
    List Expr → Except CompileError (List (Instr Float))
  | [] => .ok []
  | e :: es => do
    let first ← c.plain d e
    let rest ← c.plainAll d es
    pure (first ++ rest)

end

/-! ## What the emitter's success says -/

/-- The trees the emitter accepts over `n` declared variables: known operators and functions
with their numbers of arguments, variables among the `n`, and data that read as doubles. -/
inductive Expr.Emits (n : Int) : Expr → Prop
  | num (v : Float) : Expr.Emits n (.num v)
  | constant {v : Datum} {x : Float} : v.toReal = .ok x → Expr.Emits n (.constant v)
  | var {i : Int} (name : String) : 0 ≤ i ∧ i < n → Expr.Emits n (.var i name)
  | binary {op : String} {o : BinOp} {l r : Expr} :
      binaryOp? op = some o → Expr.Emits n l → Expr.Emits n r → Expr.Emits n (.binary op l r)
  | neg {a : Expr} : Expr.Emits n a → Expr.Emits n (.unary "-" a)
  | call {name : String} {i : Instr Float} {k : Nat} {args : List Expr} :
      callOp? name = some (i, k) → args.length = k → (∀ a ∈ args, Expr.Emits n a) →
      Expr.Emits n (.call name args)

mutual

/-- What the emitter returns is the post-order, and only for a tree it accepts. -/
theorem Expr.emit_eq_ok (n : Int) (e : Expr) {code : List (Instr Float)}
    (h : e.emit n = .ok code) : e.Emits n ∧ code = e.post := by
  cases e with
  | num v =>
    cases h
    exact ⟨.num v, rfl⟩
  | constant v =>
    simp only [Expr.emit] at h
    split at h
    · next x hx =>
      cases h
      exact ⟨.constant hx, by simp [Expr.post, hx]⟩
    · cases h
  | var i name =>
    simp only [Expr.emit] at h
    split at h
    · next hi =>
      cases h
      exact ⟨.var name hi, rfl⟩
    · cases h
  | binary op l r =>
    simp only [Expr.emit] at h
    split at h
    · next o ho =>
      obtain ⟨left, hl, h⟩ := bind_eq_ok.1 h
      obtain ⟨right, hr, h⟩ := bind_eq_ok.1 h
      cases h
      obtain ⟨hle, rfl⟩ := Expr.emit_eq_ok n l hl
      obtain ⟨hre, rfl⟩ := Expr.emit_eq_ok n r hr
      exact ⟨.binary ho hle hre, by simp [Expr.post, ho]⟩
    · cases h
  | unary op a =>
    simp only [Expr.emit] at h
    split at h
    · next hop =>
      obtain ⟨code', ha, h⟩ := bind_eq_ok.1 h
      cases h
      cases hop
      obtain ⟨hae, rfl⟩ := Expr.emit_eq_ok n a ha
      exact ⟨.neg hae, by simp [Expr.post]⟩
    · cases h
  | call name args =>
    simp only [Expr.emit] at h
    split at h
    · next i k hop =>
      split at h
      · next hk =>
        obtain ⟨code', hargs, h⟩ := bind_eq_ok.1 h
        cases h
        obtain ⟨hes, rfl⟩ := Expr.emitAll_eq_ok n args hargs
        exact ⟨.call hop hk hes, by simp [Expr.post, hop]⟩
      · cases h
    · cases h
  | foreign t => cases h
termination_by sizeOf e
decreasing_by
  all_goals
    subst_vars
    simp only [Expr.binary.sizeOf_spec, Expr.unary.sizeOf_spec, Expr.call.sizeOf_spec]
    omega

theorem Expr.emitAll_eq_ok (n : Int) (es : List Expr) {code : List (Instr Float)}
    (h : Expr.emitAll n es = .ok code) : (∀ a ∈ es, a.Emits n) ∧ code = Expr.postAll es := by
  cases es with
  | nil =>
    cases h
    exact ⟨by simp, rfl⟩
  | cons e es =>
    rw [Expr.emitAll] at h
    obtain ⟨first, he, h⟩ := bind_eq_ok.1 h
    obtain ⟨rest, hes, h⟩ := bind_eq_ok.1 h
    cases h
    obtain ⟨hee, rfl⟩ := Expr.emit_eq_ok n e he
    obtain ⟨hese, rfl⟩ := Expr.emitAll_eq_ok n es hes
    refine ⟨fun a ha => ?_, rfl⟩
    rcases List.mem_cons.1 ha with rfl | ha
    · exact hee
    · exact hese a ha
termination_by sizeOf es
decreasing_by
  all_goals
    subst_vars
    simp only [List.cons.sizeOf_spec]
    omega

end

/-- A successful compilation is the emitter's code followed by `RETURN`, over the declared
variables. -/
theorem Expr.compile_eq_ok {e : Expr} {n : Int} {limit : NestingLimit} {p : Bytecode Float}
    (h : e.compile n limit = .ok p) :
    ∃ code, e.emit n = .ok code ∧ p = ⟨code ++ [.ret], n⟩ := by
  obtain ⟨code, hcode, h⟩ := bind_eq_ok.1 h
  cases h
  have hshallow : ¬ FailsOn (·.kind = ErrorKind.resource) ((Compiler.mk n limit).node 0 e) := by
    rw [hcode]
    exact not_failsOn_ok _ code
  exact ⟨code, (Compiler.node_eq_emit_of_shallow _ 0 e hshallow).symm.trans hcode, rfl⟩

/-! ## The plain recursion below the limit -/

theorem Expr.treeHeight_le_ofArgs {e : Expr} {args : List Expr} (he : e ∈ args) :
    1 + e.treeHeight ≤ Expr.treeHeightOfArgs args := by
  induction args with
  | nil => cases he
  | cons a as ih =>
    rw [Expr.treeHeightOfArgs]
    rcases List.mem_cons.1 he with rfl | he
    · omega
    · have := ih he
      omega

mutual

/-- The compiler goes no deeper than the tree is high. -/
theorem Expr.height_le_treeHeight (e : Expr) : e.height false ≤ e.treeHeight := by
  cases e with
  | binary op l r =>
    have hl := Expr.height_le_treeHeight l
    have hr := Expr.height_le_treeHeight r
    have hspine := Expr.height_spine_le l
    by_cases ho : (chainOp? op).isSome = true
    · rw [Expr.height_link ho, Expr.treeHeight]
      omega
    · simp only [Expr.height, ho, Bool.false_eq_true, if_false, Expr.treeHeight]
      omega
  | unary op a =>
    have ha := Expr.height_le_treeHeight a
    simp only [Expr.height, Expr.treeHeight]
    omega
  | call name args =>
    simp only [Expr.height, Expr.treeHeight]
    exact Expr.heightOfArgs_le_treeHeightOfArgs args
  | num v => simp [Expr.height]
  | constant v => simp [Expr.height]
  | var i name => simp [Expr.height]
  | foreign t => simp [Expr.height]
termination_by sizeOf e
decreasing_by
  all_goals
    subst_vars
    simp only [Expr.binary.sizeOf_spec, Expr.unary.sizeOf_spec, Expr.call.sizeOf_spec]
    omega

theorem Expr.heightOfArgs_le_treeHeightOfArgs (args : List Expr) :
    Expr.heightOfArgs args ≤ Expr.treeHeightOfArgs args := by
  cases args with
  | nil => simp [Expr.heightOfArgs, Expr.treeHeightOfArgs]
  | cons e es =>
    have he := Expr.height_le_treeHeight e
    have hes := Expr.heightOfArgs_le_treeHeightOfArgs es
    simp only [Expr.heightOfArgs, Expr.treeHeightOfArgs]
    omega
termination_by sizeOf args
decreasing_by
  all_goals
    subst_vars
    simp only [List.cons.sizeOf_spec]
    omega

end

mutual

/-- With every depth down to the tree's height below the limit, the plain recursion returns
what the emitter returns. -/
theorem Compiler.plain_eq_emit (c : Compiler) (d : Nat) (e : Expr)
    (hd : c.limit.Clear d (d + e.treeHeight)) : c.plain d e = e.emit c.arity := by
  unfold Compiler.plain
  rw [if_neg (by simp [hd d (Nat.le_refl d) (Nat.le_add_right d _)])]
  cases e with
  | binary op l r =>
    simp only [Expr.treeHeight] at hd
    simp only [Expr.emit]
    cases binaryOp? op with
    | none => rfl
    | some o =>
      dsimp only
      rw [Compiler.plain_eq_emit c (d + 1) l (hd.mono (by omega) (by omega)),
        Compiler.plain_eq_emit c (d + 1) r (hd.mono (by omega) (by omega))]
  | unary op a =>
    simp only [Expr.treeHeight] at hd
    simp only [Expr.emit]
    rw [Compiler.plain_eq_emit c (d + 1) a (hd.mono (by omega) (by omega))]
  | call name args =>
    simp only [Expr.treeHeight] at hd
    simp only [Expr.emit]
    rcases callOp? name with _ | ⟨i, k⟩
    · rfl
    · dsimp only
      -- the arguments sit one level below the call
      rw [Compiler.plainAll_eq_emitAll c (d + 1) args fun a ha =>
        hd.mono (by omega) (by have := Expr.treeHeight_le_ofArgs ha; omega)]
  | _ => rfl
termination_by sizeOf e
decreasing_by
  all_goals
    subst_vars
    simp only [Expr.binary.sizeOf_spec, Expr.unary.sizeOf_spec, Expr.call.sizeOf_spec]
    omega

theorem Compiler.plainAll_eq_emitAll (c : Compiler) (d : Nat) (es : List Expr)
    (hd : ∀ a ∈ es, c.limit.Clear d (d + a.treeHeight)) :
    c.plainAll d es = Expr.emitAll c.arity es := by
  cases es with
  | nil => rw [Compiler.plainAll, Expr.emitAll]
  | cons e es =>
    rw [Compiler.plainAll, Expr.emitAll, Compiler.plain_eq_emit c d e (hd e (by simp)),
      Compiler.plainAll_eq_emitAll c d es (fun a ha => hd a (by simp [ha]))]
termination_by sizeOf es
decreasing_by
  all_goals
    subst_vars
    simp only [List.cons.sizeOf_spec]
    omega

end

/-! ## The compiled code -/

theorem Expr.compile_eq_map (e : Expr) (n : Int) (limit : NestingLimit) :
    e.compile n limit =
      (fun code => (⟨code ++ [.ret], n⟩ : Bytecode Float)) <$>
        (Compiler.mk n limit).node 0 e := by
  unfold Expr.compile
  cases (Compiler.mk n limit).node 0 e <;> rfl

/-- A successful compilation is the post-order of the tree followed by one `RETURN`, under every
limit; and under a limit above the tree's height the compiler gives what the plain recursion
gives, the same code or the same first refusal. -/
theorem compile_eq_post_order (e : Expr) (n : Int) (limit : NestingLimit) :
    (∀ p, e.compile n limit = .ok p → p.code = e.post ++ [.ret] ∧ p.arity = n) ∧
      (limit.Clear 0 e.treeHeight →
        e.compile n limit =
          (fun code => (⟨code ++ [.ret], n⟩ : Bytecode Float)) <$>
            (Compiler.mk n limit).plain 0 e) := by
  refine ⟨fun p h => ?_, fun hd => ?_⟩
  · obtain ⟨code, hcode, rfl⟩ := Expr.compile_eq_ok h
    rw [(Expr.emit_eq_ok n e hcode).2]
    exact ⟨rfl, rfl⟩
  · have hnode : limit.Clear 0 (0 + e.height false) :=
      hd.mono (Nat.le_refl 0) (by have := Expr.height_le_treeHeight e; omega)
    rw [Expr.compile_eq_map, Compiler.node_eq_emit _ 0 e hnode,
      Compiler.plain_eq_emit _ 0 e (hd.mono (Nat.le_refl 0) (by omega))]

/-- A chain of three links with mixed operators, over one variable: `(x - 1) / x * -2`. -/
def mixedChain : Expr :=
  .binary "*" (.binary "/" (.binary "-" (.var 0 "x") (.num 1.0)) (.var 0 "x"))
    (.unary "-" (.num 2.0))

/-- The program the mixed chain compiles to. -/
def mixedChainProgram : Bytecode Float :=
  ⟨[.load 0, .push 1.0, .binary .sub, .load 0, .binary .div, .push 2.0, .unary .neg,
    .binary .mul, .ret], 1⟩

theorem mixedChain_compile : mixedChain.compile 1 (.whole 100) = .ok mixedChainProgram := by
  simp [mixedChain, mixedChainProgram, Expr.compile, Compiler.node, Compiler.chain, chainOp?,
    NestingLimit.reached]

theorem mixedChain_clear : (NestingLimit.whole 100).Clear 0 mixedChain.treeHeight :=
  NestingLimit.whole_clear 0 (by simp [mixedChain, Expr.treeHeight])

theorem mixedChain_post_order :
    mixedChain.compile 1 (.whole 100) = .ok mixedChainProgram ∧
      (mixedChainProgram.code = mixedChain.post ++ [.ret] ∧ mixedChainProgram.arity = 1) ∧
      (NestingLimit.whole 100).Clear 0 mixedChain.treeHeight ∧
      mixedChain.compile 1 (.whole 100) =
        (fun code => (⟨code ++ [.ret], 1⟩ : Bytecode Float)) <$>
          (Compiler.mk 1 (.whole 100)).plain 0 mixedChain :=
  ⟨mixedChain_compile,
    (compile_eq_post_order mixedChain 1 (.whole 100)).1 _ mixedChain_compile, mixedChain_clear,
    (compile_eq_post_order mixedChain 1 (.whole 100)).2 mixedChain_clear⟩

end ScalarDiff
