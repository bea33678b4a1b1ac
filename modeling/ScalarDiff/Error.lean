import ScalarDiff.Text.ByteSize
import ScalarDiff.Text.Quoted

/-!
# Failures and their vocabulary

Every failure of the engine is reported as a value with a class, a kind, a numeric code and a
message. This module holds the shared vocabulary: the kinds, the codes with their short
descriptions, and the five classes. The causes themselves live with the stage that detects them
(`ScalarDiff.Source.Problem`, `ScalarDiff.CompileError`, `ScalarDiff.EvalError`).

A few steps end a whole call instead of reporting a failure: dividing by an exact zero inside a
derivative formula, converting an integer beyond the largest double, reading a number from text
that is none, applying an operation to values of types it does not take, using a value as a
sequence that is none, reaching past the end of a sequence, asking a value for an attribute its
type lacks, or combining arrays whose shapes or element types do not fit together. They are `Abort`s; a caller
cannot recover from them by falling back to another method.
-/

namespace ScalarDiff

/-- What sort of problem a failure is. -/
inductive ErrorKind where
  | lexical
  | syntactic
  | semantic
  | resource
  | evaluation
  | domain
  deriving Repr, DecidableEq

/-- The lowercase name of a kind. -/
def ErrorKind.name : ErrorKind → String
  | .lexical => "lexical"
  | .syntactic => "syntax"
  | .semantic => "semantic"
  | .resource => "resource"
  | .evaluation => "evaluation"
  | .domain => "domain"

/-- The class of a failure, which fixes its numeric code. -/
inductive ErrorClass where
  | parse
  | compile
  | evaluation
  | domain
  | dimension
  deriving Repr, DecidableEq

/-- The name a class is reported under. -/
def ErrorClass.name : ErrorClass → String
  | .parse => "ParseError"
  | .compile => "CompileError"
  | .evaluation => "EvaluationError"
  | .domain => "DomainError"
  | .dimension => "DimensionError"

/-- The numeric code of a class: 1 for reading, 2 for compiling, 3 for evaluating, 5 for
shapes. -/
def ErrorClass.code : ErrorClass → Nat
  | .parse => 1
  | .compile => 2
  | .evaluation => 3
  | .domain => 3
  | .dimension => 5

/-- The short description of a numeric code; a number that is no code is `Unknown error`. -/
def describeCode (code : Int) : String :=
  match code with
  | 0 => "Success"
  | 1 => "Parse error"
  | 2 => "Invalid expression"
  | 3 => "Evaluation error"
  | 5 => "Invalid dimension"
  | _ => "Unknown error"

/-- A step that ends the whole call instead of reporting a failure. -/
inductive Abort where
  /-- A double was divided by an exact zero. -/
  | zeroDivision
  /-- An integer was divided by the integer zero. -/
  | integerZeroDivision
  /-- An integer too large for a double was used as a number. -/
  | integerTooLarge
  /-- The quotient of two integers lies beyond every double. -/
  | quotientTooLarge
  /-- A mathematical function was applied outside its domain. -/
  | mathDomain
  /-- A text was used as a number but reads as none. -/
  | notANumeral (text : String)
  /-- A value that is neither text nor a number was used as a number; the name of its type. -/
  | notConvertible (typeName : String)
  /-- A value that is no sequence was used as a sequence of names; the name of its type. -/
  | notIterable (typeName : String)
  /-- A value without a length was used as an output buffer; the name of its type. -/
  | notSized (typeName : String)
  /-- A binary operator was applied to values it does not combine: its symbol and the types. -/
  | unsupportedOperands (symbol left right : String)
  /-- An operation on one value was applied to a value it does not take: the operation as
  named in the message (`unary -`, `abs()`) and the type. -/
  | badOperand (operation typeName : String)
  /-- A value that is no number was given to a mathematical function; the name of its type. -/
  | notReal (typeName : String)
  /-- A comparison between values that have no order: its symbol and the types. -/
  | notComparable (symbol left right : String)
  /-- A sequence was joined to a value of another type: the two type names. -/
  | notConcatenable (sequence other : String)
  /-- A sequence was repeated a number of times that is no integer; the count's type. -/
  | nonIntegerCount (typeName : String)
  /-- A sequence was repeated a number of times beyond every machine-sized integer. -/
  | countTooLarge
  /-- A text was repeated into a text longer than any machine-sized length. -/
  | textTooLong
  /-- A repetition would build a text or list longer than memory can hold. -/
  | outOfMemory
  /-- A sequence was read at an index past its end. -/
  | noItem
  /-- A sequence was written at an index past its end. -/
  | noSlot
  /-- A value was asked for an attribute its type lacks: the type and the attribute. -/
  | noAttribute (typeName member : String)
  /-- A value whose items cannot be replaced was written at an index; the name of its type. -/
  | notAssignable (typeName : String)
  /-- An elementwise array operation has no rule for the element types of its operands: the
  operation and the two element types. -/
  | noLoop (operation left right : String)
  /-- Arrays whose shapes do not line up were combined elementwise; their shapes. -/
  | notBroadcastable (shapes : List (List Nat))
  /-- Nested lists that are not rectangular were read as an array: the number of leading
  dimensions they agree on and the shape those dimensions have. -/
  | ragged (depth : Nat) (shape : List Nat)
  /-- Lists nested deeper than an array may be were read as an array; the largest depth. -/
  | tooManyDimensions (limit : Nat)
  /-- An array of arbitrary values was tested for finiteness. -/
  | noFiniteTest
  /-- An integer with more decimal digits than may be written out was written out. -/
  | tooManyDigits
  /-- An array was asked for with a dimension beyond every machine-sized integer. -/
  | dimensionTooLarge
  /-- An array was asked for whose size in bytes is beyond every machine-sized integer. -/
  | arrayTooBig
  /-- An array of `count` doubles could not be allocated. -/
  | cannotAllocate (count : Nat)
  /-- A value that is no integer was used as a count of loop rounds; the name of its type. -/
  | notIndex (typeName : String)
  deriving Repr, DecidableEq

/-- The name an abort is reported under. -/
def Abort.name : Abort → String
  | .zeroDivision => "ZeroDivisionError"
  | .integerZeroDivision => "ZeroDivisionError"
  | .integerTooLarge => "OverflowError"
  | .quotientTooLarge => "OverflowError"
  | .mathDomain => "ValueError"
  | .notANumeral _ => "ValueError"
  | .notConvertible _ => "TypeError"
  | .notIterable _ => "TypeError"
  | .notSized _ => "TypeError"
  | .unsupportedOperands .. => "TypeError"
  | .badOperand .. => "TypeError"
  | .notReal _ => "TypeError"
  | .notComparable .. => "TypeError"
  | .notConcatenable .. => "TypeError"
  | .nonIntegerCount _ => "TypeError"
  | .countTooLarge => "OverflowError"
  | .textTooLong => "OverflowError"
  | .outOfMemory => "MemoryError"
  | .noItem => "IndexError"
  | .noSlot => "IndexError"
  | .noAttribute .. => "AttributeError"
  | .notAssignable _ => "TypeError"
  | .noLoop .. => "UFuncTypeError"
  | .notBroadcastable _ => "ValueError"
  | .ragged .. => "ValueError"
  | .tooManyDimensions _ => "ValueError"
  | .noFiniteTest => "TypeError"
  | .tooManyDigits => "ValueError"
  | .dimensionTooLarge => "ValueError"
  | .arrayTooBig => "ValueError"
  | .cannotAllocate _ => "_ArrayMemoryError"
  | .notIndex _ => "TypeError"

/-- The message of an abort. -/
def Abort.message : Abort → String
  | .zeroDivision => "float division by zero"
  | .integerZeroDivision => "division by zero"
  | .integerTooLarge => "int too large to convert to float"
  | .quotientTooLarge => "integer division result too large for a float"
  | .mathDomain => "math domain error"
  | .notANumeral text => "could not convert string to float: " ++ Text.quoted text
  | .notConvertible typeName =>
    "float() argument must be a string or a real number, not " ++ Text.quoted typeName
  | .notIterable typeName => Text.quoted typeName ++ " object is not iterable"
  | .notSized typeName => "object of type " ++ Text.quoted typeName ++ " has no len()"
  | .unsupportedOperands symbol left right =>
    "unsupported operand type(s) for " ++ symbol ++ ": " ++ Text.quoted left ++ " and " ++
      Text.quoted right
  | .badOperand operation typeName =>
    "bad operand type for " ++ operation ++ ": " ++ Text.quoted typeName
  | .notReal typeName => "must be real number, not " ++ typeName
  | .notComparable symbol left right =>
    Text.quoted symbol ++ " not supported between instances of " ++ Text.quoted left ++ " and " ++
      Text.quoted right
  | .notConcatenable sequence other =>
    "can only concatenate " ++ sequence ++ " (not \"" ++ other ++ "\") to " ++ sequence
  | .nonIntegerCount typeName =>
    "can't multiply sequence by non-int of type " ++ Text.quoted typeName
  | .countTooLarge => "cannot fit 'int' into an index-sized integer"
  | .textTooLong => "repeated string is too long"
  | .outOfMemory => ""
  | .noItem => "list index out of range"
  | .noSlot => "list assignment index out of range"
  | .noAttribute typeName member =>
    Text.quoted typeName ++ " object has no attribute " ++ Text.quoted member
  | .notAssignable typeName => Text.quoted typeName ++ " object does not support item assignment"
  | .noLoop operation left right =>
    "ufunc " ++ Text.quoted operation ++
      " did not contain a loop with signature matching types (dtype(" ++ Text.quoted left ++
      "), dtype(" ++ Text.quoted right ++ ")) -> None"
  | .notBroadcastable shapes =>
    "operands could not be broadcast together with shapes " ++
      String.join (shapes.map fun s => Text.natTupleTight s ++ " ")
  | .ragged depth shape =>
    "setting an array element with a sequence. The requested array has an inhomogeneous " ++
      "shape after " ++ toString depth ++ " dimensions. The detected shape was " ++
      Text.natTuple shape ++ " + inhomogeneous part."
  | .tooManyDimensions limit =>
    "setting an array element with a sequence. The requested array would exceed the maximum " ++
      "number of dimension of " ++ toString limit ++ "."
  | .noFiniteTest =>
    "ufunc 'isfinite' not supported for the input types, and the inputs could not be safely " ++
      "coerced to any supported types according to the casting rule ''safe''"
  | .tooManyDigits =>
    "Exceeds the limit (4300 digits) for integer string conversion; " ++
      "use sys.set_int_max_str_digits() to increase the limit"
  | .dimensionTooLarge => "Maximum allowed dimension exceeded"
  | .arrayTooBig =>
    "array is too big; `arr.size * arr.dtype.itemsize` is larger than the maximum possible size."
  | .cannotAllocate count =>
    "Unable to allocate " ++ Text.byteSize (8 * count) ++ " for an array with shape " ++
      Text.natTuple [count] ++ " and data type float64"
  | .notIndex typeName => Text.quoted typeName ++ " object cannot be interpreted as an integer"

end ScalarDiff
