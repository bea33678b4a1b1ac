import ScalarDiff.Datum

/-!
# Expression trees

An expression is a tree of numbers, variables (by their position among the declared names),
binary and unary operators, and calls of named functions. Operators and function names are kept
as the text they were written with: the compiler decides which ones it knows, so a tree built by
hand may hold any, may give a number as any datum (`constant`, read as a double only when it is
compiled), and may even hold a node that is none of these forms (`foreign`, with the name of what
it is instead).

Binary `+ - * /` chains are written left-nested: `a + b - c` is `(a + b) - c`.
-/

namespace ScalarDiff

/-- An expression tree. -/
inductive Expr where
  /-- A number. -/
  | num (value : Float)
  /-- A number given as a datum, to be read as a double. -/
  | constant (value : Datum)
  /-- The variable at a position among the declared names, with the name it was written as. -/
  | var (index : Int) (name : String)
  /-- A binary operator applied to two operands. -/
  | binary (op : String) (left right : Expr)
  /-- A unary operator applied to one operand. -/
  | unary (op : String) (operand : Expr)
  /-- A named function applied to arguments. -/
  | call (name : String) (args : List Expr)
  /-- A node that is not an expression, with the name of its type. -/
  | foreign (typeName : String)
  deriving Inhabited

end ScalarDiff
