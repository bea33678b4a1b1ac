import ScalarDiff.Expr
import ScalarDiff.Source.Scan

/-!
# Reading tokens as an expression

The grammar, lowest precedence first:

```
Expr    := Term (('+' | '-') Term)*
Term    := Factor (('*' | '/') Factor)*
Factor  := Primary ('^' Factor)?
Primary := ('-' | '+') Primary | NUMBER | VARIABLE
         | FUNCTION '(' [Expr (',' Expr)*] ')' | '(' Expr ')'
```

Chains of `+ -` and of `* /` associate to the left, `^` to the right. A sign binds to the
following primary only, so `-2^2` is `(-2)^2`; a `+` sign and parentheses leave no node. A
variable denotes the last position its name has among the declared names.

Each production first checks the nesting depth: entering one at depth `d ≥ limit` is refused at
the token being looked at, and each passes `d + 1` to the productions it calls; the loops of a
chain do not deepen. The end token is looked at but never consumed.

Every production returns the tokens it leaves, no more than it was given. Termination follows
the pair (tokens left, production level): each call either consumes a token or descends from
Expr to Term to Factor to Primary. The nesting limit plays no part in it.
-/

namespace ScalarDiff.Source

open ScalarDiff

/-- The last position of a name among the declared names. -/
def lastIndex? (names : List String) (x : String) : Option Nat :=
  (names.zipIdx.foldl (fun acc p => if p.1 == x then some p.2 else acc) none)

/-- What a reading context fixes: the declared names, the nesting limit and the position of the
end of the text. -/
structure Grammar where
  names : List String
  limit : NestingLimit
  stop : Nat

/-- Tokens left after a production, no more than `ts`. -/
abbrev Rest (ts : List Token) := { r : List Token // r.length ≤ ts.length }

/-- A production's result on the tokens `ts`. -/
abbrev Parsed (ts : List Token) (α : Type) := Except ParseError (α × Rest ts)

/-- The token being looked at: the first one left, or the end token. -/
def Grammar.peek (g : Grammar) (ts : List Token) : Token := ts.headD (Token.finish g.stop)

/-- The refusal for entering a production at depth `d`, if `d` has reached the limit. -/
def Grammar.depthCheck (g : Grammar) (d : Nat) (ts : List Token) : Option ParseError :=
  if g.limit.reached d then some (.atToken (.tooDeep g.limit) (g.peek ts)) else none

/-- Whether a token is one of the operators `ops`. -/
def isOneOf (t : Token) (ops : List String) : Bool := ops.any t.isOperator

/-- Whether the first token left is of the given class. -/
def startsWith (ts : List Token) (p : TokenKind → Bool) : Bool :=
  match ts with
  | t :: _ => p t.kind
  | [] => false

/-- A rest that is known shorter than a list one token longer. -/
def Rest.drop1 {t : Token} {rest : List Token} (r : Rest rest) : Rest (t :: rest) :=
  ⟨r.1, by have := r.2; simp only [List.length_cons]; omega⟩

/-- A rest of a rest. -/
def Rest.trans {ts us : List Token} (r : Rest us) (h : us.length ≤ ts.length) : Rest ts :=
  ⟨r.1, by have := r.2; omega⟩

mutual

/-- `Primary := ('-' | '+') Primary | NUMBER | VARIABLE | FUNCTION '(' … ')' | '(' Expr ')'`. -/
def Grammar.primary (g : Grammar) (d : Nat) (ts : List Token) : Parsed ts Expr :=
  match g.depthCheck d ts with
  | some e => .error e
  | none =>
    match ts with
    | [] => .error (.atToken .unexpectedEnd (g.peek []))
    | t :: rest =>
      match t.kind with
      | .operator =>
        if t.text == "-" || t.text == "+" then
          match g.primary (d + 1) rest with
          | .error e => .error e
          | .ok (operand, r) =>
            .ok (if t.text == "-" then .unary "-" operand else operand, r.drop1)
        else .error (.atToken .unexpectedToken t)
      | .number v => .ok (.num v, ⟨rest, by simp only [List.length_cons]; omega⟩)
      | .variable =>
        match lastIndex? g.names t.text with
        | some i => .ok (.var i t.text, ⟨rest, by simp only [List.length_cons]; omega⟩)
        | none => .error (.atToken (.unknownVariable t.text) t)
      | .function =>
        match rest with
        | p :: afterOpen =>
          match p.kind with
          | .openParen =>
            match afterOpen with
            | c :: afterClose =>
              match c.kind with
              | .closeParen => .ok (.call t.text [], ⟨afterClose, by simp only [List.length_cons]; omega⟩)
              | _ =>
                match g.arguments t.text d [] (c :: afterClose) with
                | .error e => .error e
                | .ok (call, r) => .ok (call, (r.drop1 (t := p)).drop1)
            | [] =>
              match g.arguments t.text d [] [] with
              | .error e => .error e
              | .ok (call, r) => .ok (call, (r.drop1 (t := p)).drop1)
          | _ => .error (.atToken .missingCallParen p)
        | [] => .error (.atToken .missingCallParen (g.peek []))
      | .openParen =>
        match g.expr (d + 1) rest with
        | .error e => .error e
        | .ok (inner, r) =>
          match h : r.1 with
          | c :: afterClose =>
            match c.kind with
            | .closeParen =>
              .ok (inner, ⟨afterClose, by have := r.2; rw [h] at this; simp at this ⊢; omega⟩)
            | _ => .error (.atToken .unclosedParen c)
          | [] => .error (.atToken .unclosedParen (g.peek []))
      | .finish => .error (.atToken .unexpectedEnd t)
      | _ => .error (.atToken .unexpectedToken t)
termination_by ts.length * 5
decreasing_by
  all_goals
    try simp_wf
    try have := r.2
    try rw [h] at this
    try simp only [List.length_cons] at *
    try omega

/-- The arguments of a call after its opening parenthesis: `Expr (',' Expr)* ')'`, each
argument one level below the call. -/
def Grammar.arguments (g : Grammar) (name : String) (d : Nat) (acc : List Expr)
    (ts : List Token) : Parsed ts Expr :=
  match g.expr (d + 1) ts with
  | .error e => .error e
  | .ok (arg, r) =>
    match h : r.1 with
    | t :: rest =>
      match t.kind with
      | .closeParen =>
        .ok (.call name (acc ++ [arg]), ⟨rest, by have := r.2; rw [h] at this; simp at this; omega⟩)
      | .comma =>
        if startsWith rest (fun k => match k with | .comma | .closeParen => true | _ => false) then
          .error (.atToken (.missingArgument name) (g.peek rest))
        else
          match g.arguments name d (acc ++ [arg]) rest with
          | .error e => .error e
          | .ok (call, r2) =>
            .ok (call, r2.trans (by have := r.2; rw [h] at this; simp at this; omega))
      | _ => .error (.atToken .badArgumentEnd t)
    | [] => .error (.atToken .badArgumentEnd (g.peek []))
termination_by ts.length * 5 + 4
decreasing_by
  all_goals
    try simp_wf
    try have := r.2
    try rw [h] at this
    try simp only [List.length_cons] at *
    try omega

/-- `Factor := Primary ('^' Factor)?`. -/
def Grammar.factor (g : Grammar) (d : Nat) (ts : List Token) : Parsed ts Expr :=
  match g.depthCheck d ts with
  | some e => .error e
  | none =>
    match g.primary (d + 1) ts with
    | .error e => .error e
    | .ok (base, r) =>
      match h : r.1 with
      | t :: rest =>
        if t.isOperator "^" then
          match g.factor (d + 1) rest with
          | .error e => .error e
          | .ok (exponent, r2) =>
            .ok (.binary "^" base exponent,
              r2.trans (by have := r.2; rw [h] at this; simp at this; omega))
        else .ok (base, r)
      | [] => .ok (base, r)
termination_by ts.length * 5 + 1
decreasing_by
  all_goals
    try simp_wf
    try have := r.2
    try rw [h] at this
    try simp only [List.length_cons] at *
    try omega

/-- The loop `(('*' | '/') Factor)*` after a first factor `acc`. -/
def Grammar.termTail (g : Grammar) (d : Nat) (acc : Expr) (ts : List Token) : Parsed ts Expr :=
  match ts with
  | t :: rest =>
    if isOneOf t ["*", "/"] then
      match g.factor (d + 1) rest with
      | .error e => .error e
      | .ok (right, r) =>
        match g.termTail d (.binary t.text acc right) r.1 with
        | .error e => .error e
        | .ok (e, r2) => .ok (e, (r2.trans r.2).drop1)
    else .ok (acc, ⟨t :: rest, Nat.le_refl _⟩)
  | [] => .ok (acc, ⟨[], Nat.le_refl _⟩)
termination_by ts.length * 5
decreasing_by
  all_goals
    try simp_wf
    try have := r.2
    try rw [h] at this
    try simp only [List.length_cons] at *
    try omega

/-- `Term := Factor (('*' | '/') Factor)*`. -/
def Grammar.term (g : Grammar) (d : Nat) (ts : List Token) : Parsed ts Expr :=
  match g.depthCheck d ts with
  | some e => .error e
  | none =>
    match g.factor (d + 1) ts with
    | .error e => .error e
    | .ok (first, r) =>
      match g.termTail d first r.1 with
      | .error e => .error e
      | .ok (e, r2) => .ok (e, r2.trans r.2)
termination_by ts.length * 5 + 2
decreasing_by
  all_goals
    try simp_wf
    try have := r.2
    try rw [h] at this
    try simp only [List.length_cons] at *
    try omega

/-- The loop `(('+' | '-') Term)*` after a first term `acc`. -/
def Grammar.exprTail (g : Grammar) (d : Nat) (acc : Expr) (ts : List Token) : Parsed ts Expr :=
  match ts with
  | t :: rest =>
    if isOneOf t ["+", "-"] then
      match g.term (d + 1) rest with
      | .error e => .error e
      | .ok (right, r) =>
        match g.exprTail d (.binary t.text acc right) r.1 with
        | .error e => .error e
        | .ok (e, r2) => .ok (e, (r2.trans r.2).drop1)
    else .ok (acc, ⟨t :: rest, Nat.le_refl _⟩)
  | [] => .ok (acc, ⟨[], Nat.le_refl _⟩)
termination_by ts.length * 5
decreasing_by
  all_goals
    try simp_wf
    try have := r.2
    try rw [h] at this
    try simp only [List.length_cons] at *
    try omega

/-- `Expr := Term (('+' | '-') Term)*`. -/
def Grammar.expr (g : Grammar) (d : Nat) (ts : List Token) : Parsed ts Expr :=
  match g.depthCheck d ts with
  | some e => .error e
  | none =>
    match g.term (d + 1) ts with
    | .error e => .error e
    | .ok (first, r) =>
      match g.exprTail d first r.1 with
      | .error e => .error e
      | .ok (e, r2) => .ok (e, r2.trans r.2)
termination_by ts.length * 5 + 3
decreasing_by
  all_goals
    try simp_wf
    try have := r.2
    try rw [h] at this
    try simp only [List.length_cons] at *
    try omega

end

/-- Read a whole token sequence as an expression: the expression must be followed by the end
token. -/
def Grammar.whole (g : Grammar) (ts : List Token) : Except ParseError Expr :=
  match g.expr 0 ts with
  | .error e => .error e
  | .ok (e, r) =>
    let t := g.peek r.1
    if t.isFinish then .ok e else .error (.atToken .trailingTokens t)

end ScalarDiff.Source

namespace ScalarDiff

/-- Read a text as an expression over the declared names, with a nesting limit. -/
def Expr.parse (source : String) (names : List String) (limit : NestingLimit) : Except Source.ParseError Expr :=
  match Source.tokenize source with
  | .error e => .error e
  | .ok ts => Source.Grammar.whole ⟨names, limit, source.length⟩ ts

/-- Read a text with a nesting limit that may be no number: the text is cut into tokens first,
and only then is the limit compared with a depth, which aborts for a value that is no number. -/
def Expr.parseWithin (source : String) (names : List String) (limit : Except Abort NestingLimit) :
    Except Abort (Except Source.ParseError Expr) :=
  match Source.tokenize source with
  | .error e => .ok (.error e)
  | .ok ts => (fun l => Source.Grammar.whole ⟨names, l, source.length⟩ ts) <$> limit

end ScalarDiff
