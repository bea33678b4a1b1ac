import ScalarDiff.Decimal.Format

/-!
# Bytecode for a stack machine

A compiled expression is a list of instructions for a machine with one stack of values: push a
constant, push an input, combine the two top values, replace the top value, or return the single
value left. A program also records how many inputs it takes. Instructions are parametrised by
the type of their constants: compiled programs hold doubles, hand-written ones may hold any value.

The listing of a program names each instruction on a numbered line:

```
Bytecode (variables: 1):
  0: LOAD_VAR 0
  1: PUSH_CONST 2.0
  2: POW
  3: RETURN
```
-/

namespace ScalarDiff

/-- Operations on the two top values of the stack; the deeper value is the left operand. -/
inductive BinOp where
  | add
  | sub
  | mul
  | div
  | pow
  deriving Repr, DecidableEq

/-- Operations on the top value of the stack. -/
inductive UnOp where
  | neg
  | sin
  | cos
  | tan
  | exp
  | log
  | sqrt
  | abs
  deriving Repr, DecidableEq

/-- One instruction, with constants of type `α`. -/
inductive Instr (α : Type) where
  /-- Push a constant. -/
  | push (c : α)
  /-- Push the input at a position. -/
  | load (index : Int)
  /-- Pop two values, push their combination. -/
  | binary (op : BinOp)
  /-- Replace the top value. -/
  | unary (op : UnOp)
  /-- Return the only value on the stack. -/
  | ret

/-- The name of a binary operation in listings. -/
def BinOp.name : BinOp → String
  | .add => "ADD"
  | .sub => "SUB"
  | .mul => "MUL"
  | .div => "DIV"
  | .pow => "POW"

/-- The name of a unary operation in listings. -/
def UnOp.name : UnOp → String
  | .neg => "NEG"
  | .sin => "SIN"
  | .cos => "COS"
  | .tan => "TAN"
  | .exp => "EXP"
  | .log => "LOG"
  | .sqrt => "SQRT"
  | .abs => "ABS"

/-- The name of an instruction's operation. -/
def Instr.name {α : Type} : Instr α → String
  | .push _ => "PUSH_CONST"
  | .load _ => "LOAD_VAR"
  | .binary op => op.name
  | .unary op => op.name
  | .ret => "RETURN"

/-- The instruction an operation name stands for, with its operand where it takes one. -/
def Instr.ofName? {α : Type} (name : String) (constant : α) (index : Int) : Option (Instr α) :=
  match name with
  | "PUSH_CONST" => some (.push constant)
  | "LOAD_VAR" => some (.load index)
  | "ADD" => some (.binary .add)
  | "SUB" => some (.binary .sub)
  | "MUL" => some (.binary .mul)
  | "DIV" => some (.binary .div)
  | "POW" => some (.binary .pow)
  | "NEG" => some (.unary .neg)
  | "SIN" => some (.unary .sin)
  | "COS" => some (.unary .cos)
  | "TAN" => some (.unary .tan)
  | "EXP" => some (.unary .exp)
  | "LOG" => some (.unary .log)
  | "SQRT" => some (.unary .sqrt)
  | "ABS" => some (.unary .abs)
  | "RETURN" => some .ret
  | _ => none

/-- An instruction as a listing shows it: the name, and the operand if there is one. -/
def Instr.text : Instr Float → String
  | .push c => "PUSH_CONST " ++ c.text
  | .load i => "LOAD_VAR " ++ toString i
  | i => i.name

/-- A program: its instructions and the number of inputs it takes. A hand-written program may
declare any integer; no list of inputs has a negative length. -/
structure Bytecode (α : Type) where
  code : List (Instr α)
  arity : Int

/-- The numbered listing of a compiled program. -/
def Bytecode.listing (p : Bytecode Float) : String :=
  "Bytecode (variables: " ++ toString p.arity ++ "):\n" ++
    String.join (p.code.zipIdx.map fun (i, k) => "  " ++ toString k ++ ": " ++ i.text ++ "\n")

end ScalarDiff
