import ScalarDiff.Bytecode.Compile
import ScalarDiff.Proofs.Recognition

/-!
# Read trees compile unless a call has the wrong number of arguments

The compiler trusts nothing it is handed, and the reader hands it little to distrust: the reader
builds only the five binary operators, negation, calls of built-in functions and variables among
the declared names, and it refuses nesting beyond the limit on its own. What it does not check is
how many arguments a call has. So a tree the reader returns compiles, unless one of its calls has
the wrong number of arguments (`callArity`: two for `pow`, one for the other functions); the
compiler then refuses the first such call in the order of the text, a call before its arguments
(`Expr.checkArity`).

Nesting is the part that needs an argument, as the two count depth differently. The reader spends
a level on every production it enters, four on a parenthesis; the compiler spends one on every
node, but none along a chain of `+ - * /`, however the chain is parenthesised. Both check every
depth on their way down, so what matters is how far below a node each goes. `Expr.height` is how
far the compiler goes. A production the reader completes at depth `d` has checked every depth
from `d` to `d` plus the height of its tree (`Grammar.expr_clear`), which covers every depth the
compiler checks (`Compiler.node_checkArity`). Depths are never compared with one another, only
each with the limit, so this holds for a limit of every kind, a fractional or NaN one too.
-/

namespace ScalarDiff

/-! ## What the compiler checks of a read tree -/

/-- The number of arguments a built-in function takes: two for `pow`, one for the others. -/
def callArity (name : String) : Nat := if name = "pow" then 2 else 1

mutual

/-- The arity check of every call of a tree, in the order of the text: a call before its
arguments, an operand before the operands to its right. -/
def Expr.checkArity : Expr → Except CompileError Unit
  | .binary _ l r => l.checkArity >>= fun _ => r.checkArity
  | .unary _ a => a.checkArity
  | .call name args =>
    if args.length = callArity name then Expr.checkArities args
    else .error (.arity name (callArity name))
  | _ => .ok ()

/-- The arity check of every call of a list of trees, left to right. -/
def Expr.checkArities : List Expr → Except CompileError Unit
  | [] => .ok ()
  | e :: es => e.checkArity >>= fun _ => Expr.checkArities es

end

mutual

/-- How far below a node the compiler goes to check depths: one level per node, except along a
chain of `+ - * /`, whose operands all sit one level below the chain's top node. `spine` says
that the node is the left operand of a chain node; if it goes on with the chain, it takes no level
of its own. -/
def Expr.height (spine : Bool) : Expr → Nat
  | .binary op l r =>
    if (chainOp? op).isSome then (if spine then 0 else 1) + max (l.height true) (r.height false)
    else 1 + max (l.height false) (r.height false)
  | .unary _ a => 1 + a.height false
  | .call _ args => Expr.heightOfArgs args
  | _ => 0

/-- The height of a call of these arguments, each one level below the call. -/
def Expr.heightOfArgs : List Expr → Nat
  | [] => 0
  | e :: es => max (1 + e.height false) (Expr.heightOfArgs es)

end

/-- The trees the reader builds over `n` declared names: numbers, variables at one of the `n`
positions, the chain operators and `^`, negation, and calls of built-in functions. -/
inductive Expr.Readable (n : Nat) : Expr → Prop
  | num (v : Float) : Expr.Readable n (.num v)
  | var {i : Nat} (name : String) : i < n → Expr.Readable n (.var i name)
  | link {op : String} {l r : Expr} :
      (chainOp? op).isSome = true → Expr.Readable n l → Expr.Readable n r →
      Expr.Readable n (.binary op l r)
  | power {l r : Expr} : Expr.Readable n l → Expr.Readable n r → Expr.Readable n (.binary "^" l r)
  | neg {a : Expr} : Expr.Readable n a → Expr.Readable n (.unary "-" a)
  | call {name : String} {args : List Expr} :
      name ∈ Source.functionNames → (∀ a ∈ args, Expr.Readable n a) →
      Expr.Readable n (.call name args)

/-- No depth from `a` to `b` has reached the limit. -/
def NestingLimit.Clear (l : NestingLimit) (a b : Nat) : Prop :=
  ∀ j, a ≤ j → j ≤ b → l.reached j = false

namespace NestingLimit.Clear

variable {l : NestingLimit} {a b : Nat}

theorem mono (h : l.Clear a b) {a' b' : Nat} (ha : a ≤ a') (hb : b' ≤ b) : l.Clear a' b' :=
  fun j h₁ h₂ => h j (by omega) (by omega)

theorem single (ha : l.reached a = false) : l.Clear a a := by
  intro j h₁ h₂
  rwa [show j = a by omega]

/-- A depth below the limit extends a clear range that starts right after it. -/
theorem cons (ha : l.reached a = false) (h : l.Clear (a + 1) b) : l.Clear a b := by
  intro j h₁ h₂
  rcases Nat.eq_or_lt_of_le h₁ with rfl | h₁
  · exact ha
  · exact h j h₁ h₂

theorem union {x y : Nat} (hx : l.Clear a (a + x)) (hy : l.Clear a (a + y)) :
    l.Clear a (a + max x y) := by
  intro j h₁ h₂
  by_cases hj : j ≤ a + x
  · exact hx j h₁ hj
  · exact hy j h₁ (by omega)

/-- A call is clear from its depth when the range below it is clear for each argument. -/
theorem args (ha : l.reached a = false) {args : List Expr}
    (h : ∀ e ∈ args, l.Clear (a + 1) (a + 1 + e.height false)) :
    l.Clear a (a + Expr.heightOfArgs args) := by
  induction args with
  | nil => exact single ha
  | cons e es ih =>
    have he : l.Clear a (a + (1 + e.height false)) :=
      (cons ha (h e (by simp))).mono (Nat.le_refl a) (by omega)
    exact he.union (ih fun e' he' => h e' (by simp [he']))

end NestingLimit.Clear

section Height

variable {op : String} {l r : Expr}

/-- A chain node continuing the chain above it takes no level of its own. -/
theorem Expr.height_link_spine (ho : (chainOp? op).isSome = true) :
    (Expr.binary op l r).height true = max (l.height true) (r.height false) := by
  simp [Expr.height, ho]

theorem Expr.height_link (ho : (chainOp? op).isSome = true) :
    (Expr.binary op l r).height false = 1 + max (l.height true) (r.height false) := by
  simp [Expr.height, ho]

theorem Expr.height_power (spine : Bool) :
    (Expr.binary "^" l r).height spine = 1 + max (l.height false) (r.height false) := by
  simp [Expr.height, chainOp?]

/-- A node that is no chain node counts the same wherever it stands. -/
theorem Expr.height_spine_of_not_link {e : Expr}
    (h : ∀ op l r, e = .binary op l r → chainOp? op = none) : e.height true = e.height false := by
  cases e with
  | binary op l r => simp [Expr.height, h op l r rfl]
  | _ => rfl

theorem Expr.height_spine_le (e : Expr) : e.height true ≤ e.height false := by
  cases e with
  | binary op l r => by_cases ho : (chainOp? op).isSome = true <;> simp [Expr.height, ho]
  | _ => simp [Expr.height]

theorem Expr.height_le_spine (e : Expr) : e.height false ≤ e.height true + 1 := by
  cases e with
  | binary op l r =>
    by_cases ho : (chainOp? op).isSome = true
    · simp [Expr.height, ho]
      omega
    · simp [Expr.height, ho]
  | _ => simp [Expr.height]

theorem Expr.height_le_heightOfArgs {e : Expr} {args : List Expr} (he : e ∈ args) :
    1 + e.height false ≤ Expr.heightOfArgs args := by
  induction args with
  | nil => cases he
  | cons a as ih =>
    rw [Expr.heightOfArgs]
    rcases List.mem_cons.1 he with rfl | he
    · omega
    · have := ih he
      omega

end Height

mutual

/-- The arity check fails only on a call, with the number of arguments its function takes. -/
theorem Expr.checkArity_eq_error {err : CompileError} :
    ∀ e : Expr, e.checkArity = .error err → ∃ name, err = .arity name (callArity name)
  | .binary _ l r, h => by
    rcases bind_eq_error.1 h with h | ⟨_, -, h⟩
    · exact l.checkArity_eq_error h
    · exact r.checkArity_eq_error h
  | .unary _ a, h => a.checkArity_eq_error h
  | .call name args, h => by
    rw [Expr.checkArity] at h
    split at h
    · exact Expr.checkArities_eq_error args h
    · cases h
      exact ⟨name, rfl⟩
  | .num _, h | .constant _, h | .var _ _, h | .foreign _, h => by cases h

theorem Expr.checkArities_eq_error {err : CompileError} :
    ∀ args : List Expr, Expr.checkArities args = .error err →
      ∃ name, err = .arity name (callArity name)
  | [], h => by cases h
  | e :: es, h => by
    rcases bind_eq_error.1 h with h | ⟨_, -, h⟩
    · exact e.checkArity_eq_error h
    · exact Expr.checkArities_eq_error es h

end

/-! ## The reader checks every depth the compiler will -/

namespace Source

theorem chainOp_of_isOneOf {t : Token} {ops : List String} (h : isOneOf t ops = true)
    (hops : ∀ op ∈ ops, (chainOp? op).isSome = true) : (chainOp? t.text).isSome = true :=
  hops _ (isOneOf_iff.1 h).2

namespace Grammar

variable (g : Grammar)

mutual

/-- An expression read at depth `d` was read after checking every depth from `d` to `d` plus the
compiler's height of its tree. -/
theorem expr_clear {d : Nat} {ts r : List Token} {e : Expr}
    (h : (g.expr d ts).plain = .ok (e, r)) : g.limit.Clear d (d + e.height false) := by
  have hd := below_limit_of_ok h (expr_deep · ts)
  rw [expr_within g hd] at h
  obtain ⟨⟨first, r₁⟩, h₁, h₂⟩ := bind_eq_ok.1 h
  dsimp only at h₂
  have hlen := Parsed.length_le h₁
  have hfirst := term_clear h₁
  have htail := exprTail_clear h₂
    (hfirst.mono (Nat.le_refl _) (by have := first.height_spine_le; omega))
  exact (NestingLimit.Clear.cons hd htail).mono (Nat.le_refl d)
    (by have := e.height_le_spine; omega)
termination_by ts.length * 5 + 3
decreasing_by all_goals omega

/-- The `+ -` chain after a first term keeps clear the levels its operands sit at. -/
theorem exprTail_clear {d : Nat} {acc : Expr} {ts r : List Token} {e : Expr}
    (h : (g.exprTail d acc ts).plain = .ok (e, r))
    (hacc : g.limit.Clear (d + 1) (d + 1 + acc.height true)) :
    g.limit.Clear (d + 1) (d + 1 + e.height true) := by
  rw [exprTail_plain] at h
  generalize hts : ts = us at h
  rcases us with _ | ⟨t, rest⟩
  · cases h
    exact hacc
  · dsimp only at h
    split at h
    · next hop =>
      obtain ⟨⟨right, r₁⟩, h₁, h₂⟩ := bind_eq_ok.1 h
      dsimp only at h₂
      have hlen := Parsed.length_le h₁
      refine exprTail_clear h₂ ?_
      rw [Expr.height_link_spine (chainOp_of_isOneOf hop (by decide))]
      exact hacc.union (term_clear h₁)
    · cases h
      exact hacc
termination_by ts.length * 5
decreasing_by all_goals (try subst_vars); (try simp only [List.length_cons] at *); omega

theorem term_clear {d : Nat} {ts r : List Token} {e : Expr}
    (h : (g.term d ts).plain = .ok (e, r)) : g.limit.Clear d (d + e.height false) := by
  have hd := below_limit_of_ok h (term_deep · ts)
  rw [term_within g hd] at h
  obtain ⟨⟨first, r₁⟩, h₁, h₂⟩ := bind_eq_ok.1 h
  dsimp only at h₂
  have hlen := Parsed.length_le h₁
  have hfirst := factor_clear h₁
  have htail := termTail_clear h₂
    (hfirst.mono (Nat.le_refl _) (by have := first.height_spine_le; omega))
  exact (NestingLimit.Clear.cons hd htail).mono (Nat.le_refl d)
    (by have := e.height_le_spine; omega)
termination_by ts.length * 5 + 2
decreasing_by all_goals omega

theorem termTail_clear {d : Nat} {acc : Expr} {ts r : List Token} {e : Expr}
    (h : (g.termTail d acc ts).plain = .ok (e, r))
    (hacc : g.limit.Clear (d + 1) (d + 1 + acc.height true)) :
    g.limit.Clear (d + 1) (d + 1 + e.height true) := by
  rw [termTail_plain] at h
  generalize hts : ts = us at h
  rcases us with _ | ⟨t, rest⟩
  · cases h
    exact hacc
  · dsimp only at h
    split at h
    · next hop =>
      obtain ⟨⟨right, r₁⟩, h₁, h₂⟩ := bind_eq_ok.1 h
      dsimp only at h₂
      have hlen := Parsed.length_le h₁
      refine termTail_clear h₂ ?_
      rw [Expr.height_link_spine (chainOp_of_isOneOf hop (by decide))]
      exact hacc.union (factor_clear h₁)
    · cases h
      exact hacc
termination_by ts.length * 5
decreasing_by all_goals (try subst_vars); (try simp only [List.length_cons] at *); omega

theorem factor_clear {d : Nat} {ts r : List Token} {e : Expr}
    (h : (g.factor d ts).plain = .ok (e, r)) : g.limit.Clear d (d + e.height false) := by
  have hd := below_limit_of_ok h (factor_deep · ts)
  rw [factor_within g hd] at h
  obtain ⟨⟨base, r₁⟩, h₁, h₂⟩ := bind_eq_ok.1 h
  dsimp only at h₂
  have hlen := Parsed.length_le h₁
  have hbase : g.limit.Clear d (d + 1 + base.height false) :=
    NestingLimit.Clear.cons hd (primary_clear h₁)
  rcases r₁ with _ | ⟨t, rest⟩
  · cases h₂
    exact hbase.mono (Nat.le_refl d) (by omega)
  · dsimp only at h₂
    split at h₂
    · obtain ⟨⟨exponent, r₂⟩, h₃, h₄⟩ := map_eq_ok.1 h₂
      cases h₄
      dsimp only
      rw [Expr.height_power]
      exact (NestingLimit.Clear.cons hd ((primary_clear h₁).union (factor_clear h₃))).mono
        (Nat.le_refl d) (by omega)
    · cases h₂
      exact hbase.mono (Nat.le_refl d) (by omega)
termination_by ts.length * 5 + 1
decreasing_by all_goals (try subst_vars); (try simp only [List.length_cons] at *); omega

theorem primary_clear {d : Nat} {ts r : List Token} {e : Expr}
    (h : (g.primary d ts).plain = .ok (e, r)) : g.limit.Clear d (d + e.height false) := by
  have hd := below_limit_of_ok h (primary_deep · ts)
  rw [primary_plain, (depthCheck_eq_none g d).2 hd] at h
  dsimp only at h
  generalize hts : ts = us at h
  rcases us with _ | ⟨t, rest⟩
  · cases h
  · dsimp only at h
    split at h
    · -- a sign: the primary after it, negated for `-`
      split at h
      · obtain ⟨⟨operand, r₁⟩, h₁, h₂⟩ := map_eq_ok.1 h
        cases h₂
        refine (NestingLimit.Clear.cons hd (primary_clear h₁)).mono (Nat.le_refl d) ?_
        -- `-` adds the negation's level, `+` keeps the operand
        split
        · simp [Expr.height]
          omega
        · simp
      · cases h
    · cases h
      exact NestingLimit.Clear.single hd
    · split at h
      · cases h
        exact NestingLimit.Clear.single hd
      · cases h
    · -- a call: one level down for its arguments
      generalize hrest : rest = vs at h
      rcases vs with _ | ⟨p, afterOpen⟩
      · cases h
      · dsimp only at h
        split at h
        · generalize hopen : afterOpen = ws at h
          rcases ws with _ | ⟨c, afterClose⟩
          · obtain ⟨args, rfl, hargs⟩ := arguments_clear h
            exact NestingLimit.Clear.args hd hargs
          · dsimp only at h
            split at h
            · cases h
              exact NestingLimit.Clear.single hd
            · obtain ⟨args, rfl, hargs⟩ := arguments_clear h
              exact NestingLimit.Clear.args hd hargs
        · cases h
    · -- a parenthesis: it adds no node
      obtain ⟨⟨inner, r₁⟩, h₁, h₂⟩ := bind_eq_ok.1 h
      dsimp only at h₂
      have hlen := Parsed.length_le h₁
      have hinner := expr_clear h₁
      rcases r₁ with _ | ⟨c, afterClose⟩
      · cases h₂
      · dsimp only at h₂
        split at h₂
        · cases h₂
          exact (NestingLimit.Clear.cons hd hinner).mono (Nat.le_refl d) (by omega)
        · cases h₂
    · cases h
    · cases h
termination_by ts.length * 5
decreasing_by all_goals (try subst_vars); (try simp only [List.length_cons] at *); omega

/-- The arguments of a call read at depth `d` each keep clear the range from `d + 1` down. -/
theorem arguments_clear {d : Nat} {name : String} {acc : List Expr} {ts r : List Token}
    {e : Expr} (h : (g.arguments name d acc ts).plain = .ok (e, r)) :
    ∃ args, e = .call name (acc ++ args) ∧
      ∀ a ∈ args, g.limit.Clear (d + 1) (d + 1 + a.height false) := by
  rw [arguments_plain] at h
  obtain ⟨⟨arg, r₁⟩, h₁, h₂⟩ := bind_eq_ok.1 h
  dsimp only at h₂
  have hlen := Parsed.length_le h₁
  have harg := expr_clear h₁
  rcases r₁ with _ | ⟨t, rest⟩
  · cases h₂
  · dsimp only at h₂
    split at h₂
    · cases h₂
      exact ⟨[arg], rfl, by simpa using harg⟩
    · split at h₂
      · cases h₂
      · obtain ⟨args, rfl, hargs⟩ := arguments_clear h₂
        refine ⟨arg :: args, by simp, ?_⟩
        intro a ha
        rcases List.mem_cons.1 ha with rfl | ha
        · exact harg
        · exact hargs a ha
    · cases h₂
termination_by ts.length * 5 + 4
decreasing_by all_goals (try simp only [List.length_cons] at *); omega

end

end Grammar

/-! ## The reader builds only what the compiler knows -/

/-- Every function token of the list names a built-in function. -/
def Builtin (ts : List Token) : Prop := ∀ t ∈ ts, t.kind = .function → t.text ∈ functionNames

namespace Builtin

variable {t : Token} {ts us : List Token}

theorem left (h : Builtin (ts ++ us)) : Builtin ts := fun u hu => h u (List.mem_append_left us hu)

theorem right (h : Builtin (ts ++ us)) : Builtin us := fun u hu => h u (List.mem_append_right ts hu)

theorem tail (h : Builtin (t :: ts)) : Builtin ts := fun u hu => h u (List.mem_cons_of_mem t hu)

end Builtin

/-- The tokenizer makes a name a function token only when it is a built-in function. -/
theorem scanFrom_builtin {cs : List Char} {pos : Nat} {ts : List Token}
    (h : scanFrom cs pos = .ok ts) : Builtin ts := by
  fun_induction scanFrom cs pos generalizing ts
  case case1 =>
    cases h
    intro t ht hk
    simp only [List.mem_singleton] at ht
    subst ht
    cases hk
  case case2 ih => exact ih h
  case case3 => cases h
  case case4 ih =>
    obtain ⟨us, hus, rfl⟩ := map_eq_ok.1 h
    intro t ht hk
    rcases List.mem_cons.1 ht with rfl | ht
    · cases hk
    · exact ih hus t ht hk
  case case5 name kind _ ih =>
    obtain ⟨us, hus, rfl⟩ := map_eq_ok.1 h
    intro t ht hk
    rcases List.mem_cons.1 ht with rfl | ht
    · -- a name is a function token exactly when it is a built-in function
      simp only [kind] at hk
      split at hk
      · exact List.contains_iff_mem.1 ‹_›
      · cases hk
    · exact ih hus t ht hk
  case case6 single kind hsingle ih =>
    obtain ⟨us, hus, rfl⟩ := map_eq_ok.1 h
    intro t ht hk
    rcases List.mem_cons.1 ht with rfl | ht
    · -- a single character is an operator, a parenthesis or a comma
      simp only [single] at hsingle
      dsimp only at hk
      subst hk
      repeat' split at hsingle
      all_goals cases hsingle
    · exact ih hus t ht hk
  case case7 => cases h

/-- A name's last position is one of the positions of the names. -/
theorem lastIndex_lt {names : List String} {x : String} {i : Nat}
    (h : lastIndex? names x = some i) : i < names.length := by
  let f : Option Nat → String × Nat → Option Nat := fun acc p => if p.1 == x then some p.2 else acc
  -- every position the fold holds is one of the pairs' positions
  have hfold : ∀ (l : List (String × Nat)) (init : Option Nat),
      (∀ p ∈ l, p.2 < names.length) → (∀ j, init = some j → j < names.length) →
      ∀ j, l.foldl f init = some j → j < names.length := by
    intro l
    induction l with
    | nil => exact fun _ _ hinit => hinit
    | cons p l ih =>
      intro init hl hinit
      refine ih _ (fun q hq => hl q (by simp [hq])) fun j hj => ?_
      by_cases hp : p.1 = x
      · simp only [f, hp, beq_self_eq_true, if_true, Option.some.injEq] at hj
        exact hj ▸ hl p (by simp)
      · simp only [f, beq_iff_eq, hp, if_false] at hj
        exact hinit j hj
  refine hfold names.zipIdx none (fun p hp => ?_) (fun j hj => by cases hj) i h
  have := List.mem_zipIdx (x := p.1) (i := p.2) hp
  omega

mutual

/-- The tree of an expression whose function tokens are built-in functions is readable over the
declared names. -/
theorem IsExpr.readable {names : List String} {ts : List Token} {e : Expr} :
    IsExpr names ts e → Builtin ts → e.Readable names.length
  | .chain h₁ h₂, hb => h₂.readable (h₁.readable hb.left) hb.right

theorem IsExprTail.readable {names : List String} {acc e : Expr} {ts : List Token} :
    IsExprTail names acc ts e → acc.Readable names.length → Builtin ts → e.Readable names.length
  | .stop, hacc, _ => hacc
  | .more ht h₁ h₂, hacc, hb =>
    h₂.readable (.link (chainOp_of_isOneOf ht (by decide)) hacc (h₁.readable hb.tail.left))
      hb.tail.right

theorem IsTerm.readable {names : List String} {ts : List Token} {e : Expr} :
    IsTerm names ts e → Builtin ts → e.Readable names.length
  | .chain h₁ h₂, hb => h₂.readable (h₁.readable hb.left) hb.right

theorem IsTermTail.readable {names : List String} {acc e : Expr} {ts : List Token} :
    IsTermTail names acc ts e → acc.Readable names.length → Builtin ts → e.Readable names.length
  | .stop, hacc, _ => hacc
  | .more ht h₁ h₂, hacc, hb =>
    h₂.readable (.link (chainOp_of_isOneOf ht (by decide)) hacc (h₁.readable hb.tail.left))
      hb.tail.right

theorem IsFactor.readable {names : List String} {ts : List Token} {e : Expr} :
    IsFactor names ts e → Builtin ts → e.Readable names.length
  | .primary h, hb => h.readable hb
  | .power h₁ _ h₂, hb => .power (h₁.readable hb.left) (h₂.readable hb.right.tail)

theorem IsPrimary.readable {names : List String} {ts : List Token} {e : Expr} :
    IsPrimary names ts e → Builtin ts → e.Readable names.length
  | .neg _ h, hb => .neg (h.readable hb.tail)
  | .pos _ h, hb => h.readable hb.tail
  | .num _, _ => .num _
  | .var _ hi, _ => .var _ (lastIndex_lt hi)
  | .callEmpty ht _ _, hb => .call (hb _ (by simp) ht) (by simp)
  | .call ht _ h, hb => .call (hb _ (by simp) ht) (h.readable hb.tail.tail)
  | .paren _ h _, hb => h.readable hb.tail.left

theorem IsArgs.readable {names : List String} {ts : List Token} {args : List Expr} :
    IsArgs names ts args → Builtin ts → ∀ a ∈ args, a.Readable names.length
  | .last h _, hb => List.forall_mem_singleton.2 (h.readable hb.left)
  | .more h _ h', hb => List.forall_mem_cons.2 ⟨h.readable hb.left, h'.readable hb.right.tail⟩

end

end Source

/-! ## The compiler on readable trees -/

section Discard

variable {ε α β γ : Type}

/-- Forgetting the code of two compilations in sequence keeps whether and how each failed. -/
theorem discard_bind_bind (m : Except ε α) (m' : Except ε β) (g : α → β → γ) :
    (fun _ => ()) <$> (m >>= fun a => m' >>= fun b => pure (g a b)) =
      ((fun _ => ()) <$> m >>= fun _ => (fun _ => ()) <$> m') := by
  cases m <;> cases m' <;> rfl

theorem discard_bind_pure (m : Except ε α) (g : α → β) :
    (fun _ => ()) <$> (m >>= fun a => pure (g a)) = (fun _ => ()) <$> m := by
  cases m <;> rfl

end Discard

theorem Expr.Readable.operands {n : Nat} {op : String} {l r : Expr}
    (h : (Expr.binary op l r).Readable n) : l.Readable n ∧ r.Readable n := by
  cases h with
  | link _ hl hr => exact ⟨hl, hr⟩
  | power hl hr => exact ⟨hl, hr⟩

/-- Every built-in function but `pow` takes one argument. -/
theorem unaryFunction_of_builtin {name : String} (h : name ∈ Source.functionNames)
    (hpow : name ≠ "pow") : ∃ o, unaryFunction? name = some o := by
  simp only [Source.functionNames, List.mem_cons, List.not_mem_nil, or_false] at h
  rcases h with rfl | rfl | rfl | rfl | rfl | rfl | rfl | rfl <;> simp_all [unaryFunction?]

mutual

/-- On a readable tree with every depth it reaches below the limit, a node compiles unless a
call has the wrong number of arguments, and then it fails on the first such call. -/
theorem Compiler.node_checkArity (c : Compiler) {n : Nat} (hn : c.arity = n) (d : Nat) (e : Expr)
    (he : e.Readable n) (hd : c.limit.Clear d (d + e.height false)) :
    (fun _ => ()) <$> c.node d e = e.checkArity := by
  unfold Compiler.node
  rw [if_neg (by simp [hd d (Nat.le_refl d) (Nat.le_add_right d _)])]
  cases he with
  | num v => rfl
  | var name hi =>
    dsimp only
    rw [if_pos (by omega)]
    rfl
  | link ho hl hr =>
    obtain ⟨o, ho'⟩ := Option.isSome_iff_exists.1 ho
    rw [Expr.height_link ho] at hd
    simp only [ho']
    rw [discard_bind_bind, Compiler.chain_checkArity c hn d _ hl (hd.mono (by omega) (by omega)),
      Compiler.node_checkArity c hn (d + 1) _ hr (hd.mono (by omega) (by omega)), Expr.checkArity]
  | power hl hr =>
    rw [Expr.height_power] at hd
    simp only [show chainOp? "^" = none from rfl, if_true]
    rw [discard_bind_bind, Compiler.node_checkArity c hn (d + 1) _ hl (hd.mono (by omega) (by omega)),
      Compiler.node_checkArity c hn (d + 1) _ hr (hd.mono (by omega) (by omega)), Expr.checkArity]
  | neg ha =>
    simp only [Expr.height] at hd
    simp only [if_true]
    rw [discard_bind_pure,
      Compiler.node_checkArity c hn (d + 1) _ ha (hd.mono (by omega) (by omega)), Expr.checkArity]
  | @call name args hname hargs =>
    -- the arguments sit one level below the call
    have hd' : ∀ a ∈ args, c.limit.Clear (d + 1) (d + 1 + a.height false) := fun a ha =>
      hd.mono (by omega) (by have := Expr.height_le_heightOfArgs ha; simp only [Expr.height]; omega)
    rw [Expr.checkArity]
    by_cases hpow : name = "pow"
    · subst hpow
      simp only [show unaryFunction? "pow" = none from rfl, if_true, callArity]
      split
      · rw [discard_bind_pure, Compiler.nodes_checkArity c hn (d + 1) _ hargs hd']
      · rfl
    · obtain ⟨o, ho⟩ := unaryFunction_of_builtin hname hpow
      simp only [ho, callArity, if_neg hpow]
      split
      · rw [discard_bind_pure, Compiler.nodes_checkArity c hn (d + 1) _ hargs hd']
      · rfl
termination_by 2 * sizeOf e
decreasing_by
  all_goals
    subst_vars
    simp only [Expr.binary.sizeOf_spec, Expr.unary.sizeOf_spec, Expr.call.sizeOf_spec]
    omega

/-- The left operand of a chain compiles as its tree's arity check says, when every depth from
one level below the chain's top is clear. -/
theorem Compiler.chain_checkArity (c : Compiler) {n : Nat} (hn : c.arity = n) (d : Nat)
    (e : Expr) (he : e.Readable n) (hd : c.limit.Clear (d + 1) (d + 1 + e.height true)) :
    (fun _ => ()) <$> c.chain d e = e.checkArity := by
  unfold Compiler.chain
  split
  · rename_i op l r
    split
    · rename_i o ho
      -- the chain goes on: all its operands sit one level below its top
      have hop : (chainOp? op).isSome = true := by simp [ho]
      obtain ⟨hl, hr⟩ := he.operands
      rw [Expr.height_link_spine hop] at hd
      rw [discard_bind_bind, Compiler.chain_checkArity c hn d _ hl (hd.mono (by omega) (by omega)),
        Compiler.node_checkArity c hn (d + 1) _ hr (hd.mono (by omega) (by omega)), Expr.checkArity]
    · rename_i ho
      rw [Expr.height_spine_of_not_link (fun op' l' r' h => by cases h; exact ho)] at hd
      exact Compiler.node_checkArity c hn (d + 1) _ he hd
  · rename_i hnot
    rw [Expr.height_spine_of_not_link (fun op l r h => absurd h (hnot op l r))] at hd
    exact Compiler.node_checkArity c hn (d + 1) _ he hd
termination_by 2 * sizeOf e + 1
decreasing_by
  all_goals
    subst_vars
    try simp only [Expr.binary.sizeOf_spec]
    omega

theorem Compiler.nodes_checkArity (c : Compiler) {n : Nat} (hn : c.arity = n) (d : Nat)
    (args : List Expr) (hargs : ∀ a ∈ args, a.Readable n)
    (hd : ∀ a ∈ args, c.limit.Clear d (d + a.height false)) :
    (fun _ => ()) <$> c.nodes d args = Expr.checkArities args := by
  cases args with
  | nil =>
    rw [Compiler.nodes]
    rfl
  | cons a as =>
    rw [Compiler.nodes, discard_bind_bind,
      Compiler.node_checkArity c hn d a (hargs a (by simp)) (hd a (by simp)),
      Compiler.nodes_checkArity c hn d as (fun a' h => hargs a' (by simp [h]))
        (fun a' h => hd a' (by simp [h])),
      Expr.checkArities]
termination_by 2 * sizeOf args
decreasing_by
  all_goals
    subst_vars
    simp only [List.cons.sizeOf_spec]
    omega

end

/-- A readable tree whose depths are all below the limit compiles unless a call has the wrong
number of arguments, and then fails on the first such call. -/
theorem Expr.compile_checkArity {e : Expr} {n : Nat} {limit : NestingLimit} (he : e.Readable n)
    (hd : limit.Clear 0 (e.height false)) :
    (fun _ => ()) <$> e.compile n limit = e.checkArity := by
  unfold Expr.compile
  rw [discard_bind_pure]
  exact Compiler.node_checkArity ⟨n, limit⟩ rfl 0 e he (by simpa using hd)

/-- A tree the reader returns is readable over the declared names, and the reader has checked
every depth the compiler will check in it. -/
theorem Expr.parse_readable {source : String} {names : List String} {limit : NestingLimit}
    {e : Expr} (h : Expr.parse source names limit = .ok e) :
    e.Readable names.length ∧ limit.Clear 0 (e.height false) := by
  unfold Expr.parse at h
  split at h
  · cases h
  · rename_i ts hts
    rw [Source.Grammar.whole_plain] at h
    obtain ⟨⟨e', r⟩, hexpr, hend⟩ := bind_eq_ok.1 h
    have he : e' = e := by
      dsimp only at hend
      split at hend
      · exact Except.ok.inj hend
      · cases hend
    subst he
    obtain ⟨c, rfl, hc⟩ := Source.Grammar.expr_sound _ hexpr
    refine ⟨hc.readable (Source.scanFrom_builtin hts).left, ?_⟩
    simpa using Source.Grammar.expr_clear _ hexpr

/-- A tree the reader returns compiles, over as many variables as there are names and with the
same nesting limit, unless one of its calls has the wrong number of arguments; the compiler then
refuses the first such call in the order of the text, naming its function and the number of
arguments the function takes. It never refuses a read tree for its nesting, its variables, its
operators or its functions. -/
theorem parsed_tree_compiles_unless_arity {source : String} {names : List String}
    {limit : NestingLimit} {e : Expr} (h : Expr.parse source names limit = .ok e) :
    (fun _ => ()) <$> e.compile names.length limit = e.checkArity ∧
      ∀ err, e.compile names.length limit = .error err →
        ∃ name, err = .arity name (callArity name) := by
  obtain ⟨he, hd⟩ := Expr.parse_readable h
  have hcompile := Expr.compile_checkArity he hd
  refine ⟨hcompile, fun err herr => ?_⟩
  rw [herr] at hcompile
  exact e.checkArity_eq_error hcompile.symm

/-- `pow(x)` is read over the name `x`, and its compilation fails on the one argument of `pow`. -/
theorem pow_of_one_argument_refused :
    ∃ e, Expr.parse "pow(x)" ["x"] (.whole 100) = .ok e ∧ e.checkArity.toBool = false ∧
      ((fun _ => ()) <$> e.compile ["x"].length (.whole 100) = e.checkArity ∧
        ∀ err, e.compile ["x"].length (.whole 100) = .error err →
          ∃ name, err = .arity name (callArity name)) := by
  have hread : ((Expr.parse "pow(x)" ["x"] (.whole 100)).toOption.map
      fun e => e.checkArity.toBool) = some false := by decide +kernel
  obtain ⟨e, he⟩ : ∃ e, Expr.parse "pow(x)" ["x"] (.whole 100) = .ok e := by
    cases hp : Expr.parse "pow(x)" ["x"] (.whole 100) with
    | error err =>
      rw [hp] at hread
      cases hread
    | ok e => exact ⟨e, rfl⟩
  rw [he] at hread
  exact ⟨e, he, Option.some.inj hread, parsed_tree_compiles_unless_arity he⟩

end ScalarDiff
