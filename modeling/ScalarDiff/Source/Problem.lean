import ScalarDiff.Error
import ScalarDiff.Nesting
import ScalarDiff.Source.Token

/-!
# Failures of reading an expression

A text is refused either while it is cut into tokens (a stray character, a malformed number) or
while the tokens are read as an expression (an unexpected token, a missing parenthesis, an
unknown name, nesting beyond the limit), or before either, when what is handed over is not text
at all. Each refusal names a cause and the span `[start, stop)` of code points it points at,
with the text found there.
-/

namespace ScalarDiff.Source

/-- Why a text is not an expression. -/
inductive Problem where
  /-- A character that starts no token, at a position. -/
  | strayCharacter (c : Char) (pos : Nat)
  /-- A malformed number, its text and position. -/
  | badNumber (text : String) (pos : Nat)
  /-- Nesting reached the limit. -/
  | tooDeep (limit : NestingLimit)
  /-- The expression ended before the text did. -/
  | trailingTokens
  /-- A parenthesis was not closed. -/
  | unclosedParen
  /-- A name that is no declared variable. -/
  | unknownVariable (name : String)
  /-- The text ended where an operand was due. -/
  | unexpectedEnd
  /-- A token that cannot start an operand. -/
  | unexpectedToken
  /-- A function name not followed by an opening parenthesis. -/
  | missingCallParen
  /-- An argument followed by neither a comma nor a closing parenthesis. -/
  | badArgumentEnd
  /-- A comma not followed by an argument, in a call of the named function. -/
  | missingArgument (name : String)
  /-- The expression handed over is not text. -/
  | sourceNotText
  /-- A variable name handed over is not text. -/
  | nameNotText
  deriving Repr

/-- The message of a cause. -/
def Problem.message : Problem → String
  | .strayCharacter c pos =>
    "Unexpected character " ++ Text.quoted (String.singleton c) ++ " at position " ++ toString pos
  | .badNumber text pos =>
    "Invalid numeric literal " ++ Text.quoted text ++ " at position " ++ toString pos
  | .tooDeep limit => "Expression too deeply nested (max depth: " ++ limit.text ++ ")"
  | .trailingTokens => "Unexpected tokens after expression"
  | .unclosedParen => "Expected closing parenthesis"
  | .unknownVariable name => "Unknown variable: " ++ name
  | .unexpectedEnd => "Unexpected end of expression"
  | .unexpectedToken => "Unexpected token"
  | .missingCallParen => "Expected '(' after function name"
  | .badArgumentEnd => "Expected ',' or ')' in function call"
  | .missingArgument name => "Missing argument in call to " ++ name ++ "()"
  | .sourceNotText => "Expression must be a string"
  | .nameNotText => "Variable names must be strings"

/-- The kind of a cause. -/
def Problem.kind : Problem → ErrorKind
  | .strayCharacter .. | .badNumber .. => .lexical
  | .tooDeep _ => .resource
  | .unknownVariable _ => .semantic
  | _ => .syntactic

/-- The tokens that would have been accepted where the cause was found. -/
def Problem.expected : Problem → List String
  | .trailingTokens => ["END"]
  | .unclosedParen => ["RPAREN"]
  | .missingCallParen => ["LPAREN"]
  | .badArgumentEnd => ["COMMA", "RPAREN"]
  | _ => []

/-- A refused text: the cause, the span it points at and what was found there. -/
structure ParseError where
  problem : Problem
  start : Nat
  stop : Nat
  found : Option String
  deriving Repr

/-- The error for a cause found at a token: the span of the token, at least one code point
wide, and the token's class and text (or `END`). -/
def ParseError.atToken (p : Problem) (t : Token) : ParseError :=
  { problem := p, start := t.pos, stop := max t.stop (t.pos + 1),
    found := some (if t.isFinish then "END" else t.kind.name ++ "(" ++ t.text ++ ")") }

/-- The message of a refused text. -/
def ParseError.message (e : ParseError) : String := e.problem.message

/-- The full description of a refused text: message, span, expected tokens and what was found. -/
def ParseError.text (e : ParseError) : String :=
  let expected := e.problem.expected
  e.message ++ " at span [" ++ toString e.start ++ ", " ++ toString e.stop ++ ")" ++
    (if expected.isEmpty then "" else "; expected " ++ ", ".intercalate expected) ++
    (match e.found with
     | some f => "; found " ++ f
     | none => "")

end ScalarDiff.Source
