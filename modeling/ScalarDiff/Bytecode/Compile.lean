import ScalarDiff.Bytecode
import ScalarDiff.Datum
import ScalarDiff.Error
import ScalarDiff.Nesting
import ScalarDiff.Expr

/-!
# Compiling expression trees to bytecode

A tree compiles to the post-order of its nodes, operands left to right, followed by one
`RETURN`. The compiler trusts nothing it is handed: it refuses unknown operators and functions,
calls with the wrong number of arguments, variable positions outside the declared ones, nodes
that are no expression, and nesting beyond the limit. A number given as a datum is read as a
double when its node is compiled, and a datum that reads as none ends the compilation with the
abort of its reading.

The nesting depth is checked on entering every node, the root at depth `0`: a node at depth
`d ≥ limit` is refused. Children sit one level below their node, except in a left-nested chain of
`+ - * /`, whose operands all sit one level below the chain's top node however long the chain is,
as the reader builds such chains by a loop. The first refusal in post-order wins, left before
right, and a node's own checks come before its children's.
-/

namespace ScalarDiff

/-- Why a tree does not compile. -/
inductive CompileError where
  /-- Nesting reached the limit. -/
  | tooDeep (limit : NestingLimit)
  /-- A variable position outside the declared variables. -/
  | indexOutOfRange (index : Int) (count : Int)
  /-- A binary operator the machine lacks. -/
  | unknownBinary (op : String)
  /-- A unary operator the machine lacks. -/
  | unknownUnary (op : String)
  /-- A call of a known function with the wrong number of arguments; the number it takes. -/
  | arity (name : String) (wanted : Nat)
  /-- A call of a function the machine lacks. -/
  | unknownFunction (name : String)
  /-- A node that is no expression, with the name of its type. -/
  | unknownNode (typeName : String)
  /-- A number node whose datum does not read as a double; the abort of the reading. -/
  | unreadable (a : Abort)
  deriving Repr

/-- The message of a compile refusal. -/
def CompileError.message : CompileError → String
  | .tooDeep limit => "Expression too deeply nested (max depth: " ++ limit.text ++ ")"
  | .indexOutOfRange i n =>
    "Variable index " ++ toString i ++ " out of range for " ++ toString n ++ " variables"
  | .unknownBinary op => "Unknown binary operator: " ++ op
  | .unknownUnary op => "Unknown unary operator: " ++ op
  | .arity name 1 => name ++ "() requires exactly 1 argument"
  | .arity name k => name ++ "() requires exactly " ++ toString k ++ " arguments"
  | .unknownFunction name => "Unknown function: " ++ name
  | .unknownNode t => "Unknown node type " ++ t
  | .unreadable a => a.message

/-- The kind of a compile refusal. -/
def CompileError.kind : CompileError → ErrorKind
  | .tooDeep _ => .resource
  | _ => .semantic

/-- The operators that form left-nested chains, with their operations. -/
def chainOp? (op : String) : Option BinOp :=
  match op with
  | "+" => some .add
  | "-" => some .sub
  | "*" => some .mul
  | "/" => some .div
  | _ => none

/-- The functions of one argument, with their operations. -/
def unaryFunction? (name : String) : Option UnOp :=
  match name with
  | "sin" => some .sin
  | "cos" => some .cos
  | "tan" => some .tan
  | "exp" => some .exp
  | "log" => some .log
  | "sqrt" => some .sqrt
  | "abs" => some .abs
  | _ => none

/-- The compiler's fixed inputs: the number of declared variables and the nesting limit. -/
structure Compiler where
  arity : Int
  limit : NestingLimit

mutual

/-- The code of a node entered at depth `d`. -/
def Compiler.node (c : Compiler) (d : Nat) (e : Expr) : Except CompileError (List (Instr Float)) :=
    if c.limit.reached d then .error (.tooDeep c.limit)
    else match e with
    | .num v => .ok [.push v]
    | .constant v =>
      match v.toReal with
      | .ok x => .ok [.push x]
      | .error a => .error (.unreadable a)
    | .var i _ =>
      if 0 ≤ i ∧ i < c.arity then .ok [.load i] else .error (.indexOutOfRange i c.arity)
    | .binary op l r =>
      match chainOp? op with
      | some o => do
        let left ← c.chain d l
        let right ← c.node (d + 1) r
        pure (left ++ right ++ [.binary o])
      | none =>
        if op = "^" then do
          let left ← c.node (d + 1) l
          let right ← c.node (d + 1) r
          pure (left ++ right ++ [.binary .pow])
        else .error (.unknownBinary op)
    | .unary op a =>
      if op = "-" then do
        let code ← c.node (d + 1) a
        pure (code ++ [.unary .neg])
      else .error (.unknownUnary op)
    | .call name args =>
      match unaryFunction? name with
      | some o =>
        if args.length = 1 then do
          let code ← c.nodes (d + 1) args
          pure (code ++ [.unary o])
        else .error (.arity name 1)
      | none =>
        if name = "pow" then
          if args.length = 2 then do
            let code ← c.nodes (d + 1) args
            pure (code ++ [.binary .pow])
          else .error (.arity name 2)
        else .error (.unknownFunction name)
    | .foreign t => .error (.unknownNode t)
termination_by 2 * sizeOf e
decreasing_by
  all_goals
    try simp only [Expr.binary.sizeOf_spec, Expr.unary.sizeOf_spec, Expr.call.sizeOf_spec]
    omega

/-- The code of the left operand of a chain whose top node is at depth `d`: the chain goes on
through chain operators, and its first operand that is none sits at depth `d + 1`. -/
def Compiler.chain (c : Compiler) (d : Nat) : Expr → Except CompileError (List (Instr Float))
  | .binary op l r =>
    match chainOp? op with
    | some o => do
      let left ← c.chain d l
      let right ← c.node (d + 1) r
      pure (left ++ right ++ [.binary o])
    | none => c.node (d + 1) (.binary op l r)
  | e => c.node (d + 1) e
termination_by e => 2 * sizeOf e + 1
decreasing_by
  all_goals
    try simp only [Expr.binary.sizeOf_spec]
    omega

/-- The code of a list of nodes at depth `d`, left to right. -/
def Compiler.nodes (c : Compiler) (d : Nat) : List Expr → Except CompileError (List (Instr Float))
  | [] => .ok []
  | e :: es => do
    let first ← c.node d e
    let rest ← c.nodes d es
    pure (first ++ rest)
termination_by es => 2 * sizeOf es
decreasing_by
  all_goals
    try simp only [List.cons.sizeOf_spec]
    omega

end

/-- Compile a tree over `arity` declared variables with a nesting limit. -/
def Expr.compile (e : Expr) (arity : Int) (limit : NestingLimit) : Except CompileError (Bytecode Float) := do
  let code ← (Compiler.mk arity limit).node 0 e
  pure ⟨code ++ [.ret], arity⟩

end ScalarDiff
