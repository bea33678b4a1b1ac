/-!
# Tokens of expression text

An expression text is read as a sequence of tokens, each with the span of code points it
covers. Numbers carry the double they denote. Names are variables unless they are one of the
eight built-in function names. The sequence always ends with one end token, of empty text, at
the length of the text.
-/

namespace ScalarDiff.Source

/-- The class of a token; a number carries its value. -/
inductive TokenKind where
  | number (value : Float)
  | variable
  | function
  | operator
  | openParen
  | closeParen
  | comma
  | finish

/-- The name a token class is reported under. -/
def TokenKind.name : TokenKind → String
  | .number _ => "NUMBER"
  | .variable => "VARIABLE"
  | .function => "FUNCTION"
  | .operator => "OPERATOR"
  | .openParen => "LPAREN"
  | .closeParen => "RPAREN"
  | .comma => "COMMA"
  | .finish => "END"

/-- A token with its text and the half-open span `[pos, stop)` it covers. -/
structure Token where
  kind : TokenKind
  text : String
  pos : Nat
  stop : Nat

/-- The end token of a text of length `n`. -/
def Token.finish (n : Nat) : Token := ⟨.finish, "", n, n⟩

/-- Whether a token is the end token. -/
def Token.isFinish (t : Token) : Bool :=
  match t.kind with
  | .finish => true
  | _ => false

/-- Whether a token is the operator written `op`. -/
def Token.isOperator (t : Token) (op : String) : Bool :=
  match t.kind with
  | .operator => t.text == op
  | _ => false

/-- The value of a number token. -/
def Token.value? (t : Token) : Option Float :=
  match t.kind with
  | .number v => some v
  | _ => none

/-- The built-in function names; every other name is a variable. -/
def functionNames : List String := ["sin", "cos", "tan", "exp", "log", "sqrt", "abs", "pow"]

end ScalarDiff.Source
