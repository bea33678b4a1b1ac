import ScalarDiff.Proofs.PostOrder
import ScalarDiff.Machine

/-!
# Compiled programs are well-formed bytecode

The stack check (`Bytecode.checkStack`) replays a program's stack depths and refuses an input
position outside the declared ones, an underflow, a `RETURN` at a depth other than one, or a
missing `RETURN`. Every program the compiler returns passes it, and for a reason that holds piece
by piece: the code of every subtree pushes exactly one value (`Bytecode.Pushes`). From whatever
depth it starts, such code never takes a value that was on the stack before it and leaves one
value more, so the replay of what follows goes on as if that code were a single push.

The code of a tree is its post-order (`Expr.post`), and there every operand pushes one value and
the node's own instruction takes as many as the node has operands and leaves one. The program is
that post-order and one `RETURN`, which then finds exactly one value
(`compiled_program_well_formed`).
-/

namespace ScalarDiff

/-! ## Code that pushes a number of values -/

namespace Bytecode

variable {α : Type} {arity : Int}

/-- Code that pushes `m` values: from whatever depth `k` it starts, the replay of the code and
what follows it is the replay of what follows from `k + m`. From an empty stack it underflows
nowhere, so from no depth does it take a value that it did not push itself. -/
def Pushes (arity : Int) (m : Nat) (code : List (Instr α)) : Prop :=
  ∀ rest k, replayDepth arity (code ++ rest) k = replayDepth arity rest (k + m)

namespace Pushes

theorem nil : Pushes arity 0 ([] : List (Instr α)) := fun _ _ => rfl

theorem push (c : α) : Pushes arity 1 [Instr.push c] := fun _ _ => rfl

theorem load {i : Int} (hi : 0 ≤ i ∧ i < arity) :
    Pushes arity 1 [(Instr.load i : Instr α)] := by
  intro rest k
  rw [List.singleton_append, replayDepth, if_pos hi]

theorem append {m m' : Nat} {a b : List (Instr α)} (ha : Pushes arity m a)
    (hb : Pushes arity m' b) : Pushes arity (m + m') (a ++ b) := by
  intro rest k
  rw [List.append_assoc, ha, hb, Nat.add_assoc]

/-- An operation on the two top values, after code that pushes them, leaves one. -/
theorem binary {code : List (Instr α)} (h : Pushes arity 2 code) (o : BinOp) :
    Pushes arity 1 (code ++ [.binary o]) := by
  intro rest k
  rw [List.append_assoc, h, List.singleton_append, replayDepth, if_neg (by omega)]
  rfl

/-- An operation on the top value, after code that pushes it, leaves it. -/
theorem unary {code : List (Instr α)} (h : Pushes arity 1 code) (o : UnOp) :
    Pushes arity 1 (code ++ [.unary o]) := by
  intro rest k
  rw [List.append_assoc, h, List.singleton_append, replayDepth, if_neg (by omega)]

/-- Code that pushes one value, followed by `RETURN`, passes the replay from an empty stack. -/
theorem replay_ret {code : List (Instr α)} (h : Pushes arity 1 code) :
    replayDepth arity (code ++ [.ret]) 0 = .ok () := by
  rw [h]
  rfl

end Pushes

end Bytecode

/-! ## The instructions of a post-order -/

/-- An instruction that may stand in the body of a compiled program: anything but `RETURN`, and an
input position only among the `arity` declared ones. -/
def Instr.InBody {α : Type} (arity : Int) : Instr α → Prop
  | .load i => 0 ≤ i ∧ i < arity
  | .ret => False
  | _ => True

@[simp]
theorem Expr.postAll_append (as bs : List Expr) :
    Expr.postAll (as ++ bs) = Expr.postAll as ++ Expr.postAll bs := by
  induction as with
  | nil => rfl
  | cons a as ih => rw [List.cons_append, Expr.postAll, Expr.postAll, ih, List.append_assoc]

/-- The post-order of an argument is one stretch of the arguments' post-order. -/
theorem Expr.post_infix_postAll {a : Expr} {args : List Expr} (ha : a ∈ args) :
    a.post <:+: Expr.postAll args := by
  obtain ⟨pre, post, rfl⟩ := List.append_of_mem ha
  rw [Expr.postAll_append, Expr.postAll, ← List.append_assoc]
  exact List.infix_append _ _ _

theorem Expr.mem_postAll {x : Instr Float} {args : List Expr} :
    x ∈ Expr.postAll args ↔ ∃ a ∈ args, x ∈ a.post := by
  induction args with
  | nil => simp [Expr.postAll]
  | cons a as ih => simp [Expr.postAll, ih]

/-- A call's instruction takes one value for a function of one argument and two for `pow`. -/
theorem callOp_cases {name : String} {i : Instr Float} {k : Nat}
    (h : callOp? name = some (i, k)) :
    (k = 1 ∧ ∃ o, i = .unary o) ∨ (k = 2 ∧ i = .binary .pow) := by
  unfold callOp? at h
  split at h
  · cases h
    exact .inl ⟨rfl, _, rfl⟩
  · split at h
    · cases h
      exact .inr ⟨rfl, rfl⟩
    · cases h

theorem Expr.postAll_pushes {n : Int} {args : List Expr}
    (h : ∀ a ∈ args, Bytecode.Pushes n 1 a.post) :
    Bytecode.Pushes n args.length (Expr.postAll args) := by
  induction args with
  | nil => exact Bytecode.Pushes.nil
  | cons a as ih =>
    rw [Expr.postAll, List.length_cons, Nat.add_comm]
    exact (h a (by simp)).append (ih fun b hb => h b (by simp [hb]))

namespace Expr.Emits

variable {n : Int} {e : Expr}

/-- The post-order of a tree the emitter accepts pushes one value. -/
theorem pushes (h : e.Emits n) : Bytecode.Pushes n 1 e.post := by
  induction h with
  | num v => exact Bytecode.Pushes.push v
  | constant hx =>
    simp only [Expr.post, hx]
    exact Bytecode.Pushes.push _
  | var name hi => exact Bytecode.Pushes.load hi
  | binary ho _ _ ihl ihr =>
    simp only [Expr.post, ho, Option.map_some, Option.toList_some]
    exact (ihl.append ihr).binary _
  | neg _ ih =>
    simp only [Expr.post, if_pos]
    exact ih.unary .neg
  | call hop hk _ ih =>
    simp only [Expr.post, hop, Option.map_some, Option.toList_some]
    have hargs := Expr.postAll_pushes ih
    rw [hk] at hargs
    -- the function's instruction takes as many values as it has arguments
    rcases callOp_cases hop with ⟨rfl, o, rfl⟩ | ⟨rfl, rfl⟩
    · exact hargs.unary o
    · exact hargs.binary .pow

/-- The post-order of a tree the emitter accepts holds no `RETURN` and loads only declared
inputs. -/
theorem inBody (h : e.Emits n) : ∀ x ∈ e.post, x.InBody n := by
  induction h with
  | num v => simp [Expr.post, Instr.InBody]
  | constant hx => simp [Expr.post, hx, Instr.InBody]
  | var name hi => simpa [Expr.post, Instr.InBody] using hi
  | binary ho _ _ ihl ihr =>
    intro x hx
    simp only [Expr.post, ho, Option.map_some, Option.toList_some, List.mem_append,
      List.mem_singleton] at hx
    rcases hx with (hx | hx) | rfl
    · exact ihl x hx
    · exact ihr x hx
    · trivial
  | neg _ ih =>
    intro x hx
    simp only [Expr.post, if_pos, List.mem_append, List.mem_singleton] at hx
    rcases hx with hx | rfl
    · exact ih x hx
    · trivial
  | call hop _ _ ih =>
    intro x hx
    simp only [Expr.post, hop, Option.map_some, Option.toList_some, List.mem_append,
      List.mem_singleton] at hx
    rcases hx with hx | rfl
    · obtain ⟨a, ha, hx⟩ := Expr.mem_postAll.1 hx
      exact ih a ha x hx
    · rcases callOp_cases hop with ⟨-, o, rfl⟩ | ⟨-, rfl⟩ <;> trivial

end Expr.Emits

/-! ## Subtrees -/

/-- `s` is a subtree of a tree: the tree itself, or a subtree of one of its operands or
arguments. -/
inductive Expr.Subtree (s : Expr) : Expr → Prop
  | refl : Expr.Subtree s s
  | left {op : String} {l r : Expr} : Expr.Subtree s l → Expr.Subtree s (.binary op l r)
  | right {op : String} {l r : Expr} : Expr.Subtree s r → Expr.Subtree s (.binary op l r)
  | operand {op : String} {a : Expr} : Expr.Subtree s a → Expr.Subtree s (.unary op a)
  | arg {name : String} {a : Expr} {args : List Expr} :
      a ∈ args → Expr.Subtree s a → Expr.Subtree s (.call name args)

namespace Expr.Subtree

variable {s e : Expr}

/-- The post-order of a subtree is one stretch of the tree's. -/
theorem post_infix (h : s.Subtree e) : s.post <:+: e.post := by
  induction h with
  | refl => exact List.infix_refl _
  | left _ ih =>
    simp only [Expr.post]
    exact ih.trans ((List.prefix_append _ _).trans (List.prefix_append _ _)).isInfix
  | right _ ih =>
    simp only [Expr.post]
    exact ih.trans (List.infix_append _ _ _)
  | operand _ ih =>
    simp only [Expr.post]
    exact ih.trans (List.prefix_append _ _).isInfix
  | arg ha _ ih =>
    simp only [Expr.post]
    exact ih.trans ((Expr.post_infix_postAll ha).trans (List.prefix_append _ _).isInfix)

/-- A subtree of a tree the emitter accepts is accepted too. -/
theorem emits {n : Int} (h : s.Subtree e) (he : e.Emits n) : s.Emits n := by
  induction h with
  | refl => exact he
  | left _ ih =>
    cases he with
    | binary _ hl _ => exact ih hl
  | right _ ih =>
    cases he with
    | binary _ _ hr => exact ih hr
  | operand _ ih =>
    cases he with
    | neg ha => exact ih ha
  | arg ha _ ih =>
    cases he with
    | call _ _ hargs => exact ih (hargs _ ha)

end Expr.Subtree

/-! ## Compiled programs -/

/-- Every compiled program passes the stack check. Its one `RETURN` is its last instruction and
finds one value; every input it loads is a declared one; and the code of every subtree is one
stretch of the program that pushes exactly one value. -/
theorem compiled_program_well_formed {e : Expr} {n : Int} {limit : NestingLimit}
    {p : Bytecode Float} (h : e.compile n limit = .ok p) :
    p.checkStack = .ok () ∧ p.arity = n ∧
      (∃ body, p.code = body ++ [.ret] ∧ Instr.ret ∉ body ∧ Bytecode.Pushes n 1 body) ∧
      (∀ i, Instr.load i ∈ p.code → 0 ≤ i ∧ i < n) ∧
      ∀ s : Expr, s.Subtree e → s.post <:+: p.code ∧ Bytecode.Pushes n 1 s.post := by
  obtain ⟨code, hcode, rfl⟩ := Expr.compile_eq_ok h
  obtain ⟨he, rfl⟩ := Expr.emit_eq_ok n e hcode
  have hbody := he.inBody
  have hpushes := he.pushes
  refine ⟨hpushes.replay_ret, rfl, ⟨e.post, rfl, fun hr => hbody _ hr, hpushes⟩,
    fun i hi => ?_, fun s hs => ⟨?_, (hs.emits he).pushes⟩⟩
  · -- the final `RETURN` loads nothing
    rcases List.mem_append.1 hi with hi | hi
    · exact hbody _ hi
    · simp at hi
  · exact hs.post_infix.trans (List.prefix_append _ _).isInfix

theorem mixedChain_well_formed :
    mixedChain.compile 1 (.whole 100) = .ok mixedChainProgram ∧
      mixedChainProgram.checkStack = .ok () ∧
      ∀ s : Expr, s.Subtree mixedChain →
        s.post <:+: mixedChainProgram.code ∧ Bytecode.Pushes 1 1 s.post :=
  have hwell := compiled_program_well_formed mixedChain_compile
  ⟨mixedChain_compile, hwell.1, hwell.2.2.2.2⟩

end ScalarDiff
