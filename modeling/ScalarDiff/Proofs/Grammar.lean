import ScalarDiff.Expr.Parse

/-!
# The expression grammar as derivations

The grammar the reader follows, stated as relations between a list of tokens and the tree it
denotes, with no reference to the reader:

```
Expr    := Term (('+' | '-') Term)*
Term    := Factor (('*' | '/') Factor)*
Factor  := Primary ('^' Factor)?
Primary := ('-' | '+') Primary | NUMBER | VARIABLE
         | FUNCTION '(' [Expr (',' Expr)*] ')' | '(' Expr ')'
```

A chain of `+ -` or of `* /` is read as a tail after the tree of what came before it, so the
tree is nested to the left; `^` takes a whole factor on its right, so it nests to the right. A
sign applies to the primary after it only, a `+` sign and parentheses add no node, and a
variable denotes the last position of its name among the declared names.

A sentence is a list of tokens that `IsExpr` relates to some tree; a list is a viable prefix
(`Viable`) when a sentence followed by an end token starts with it.
-/

namespace ScalarDiff.Source

open ScalarDiff

mutual

/-- `Expr := Term (('+' | '-') Term)*`. -/
inductive IsExpr (names : List String) : List Token → Expr → Prop
  | chain {ts us : List Token} {first e : Expr} :
      IsTerm names ts first → IsExprTail names first us e → IsExpr names (ts ++ us) e

/-- The `+ -` chain after a first term, whose tree so far is `acc`. -/
inductive IsExprTail (names : List String) : Expr → List Token → Expr → Prop
  | stop {acc : Expr} : IsExprTail names acc [] acc
  | more {acc right e : Expr} {t : Token} {ts us : List Token} :
      isOneOf t ["+", "-"] = true → IsTerm names ts right →
      IsExprTail names (.binary t.text acc right) us e → IsExprTail names acc (t :: (ts ++ us)) e

/-- `Term := Factor (('*' | '/') Factor)*`. -/
inductive IsTerm (names : List String) : List Token → Expr → Prop
  | chain {ts us : List Token} {first e : Expr} :
      IsFactor names ts first → IsTermTail names first us e → IsTerm names (ts ++ us) e

/-- The `* /` chain after a first factor, whose tree so far is `acc`. -/
inductive IsTermTail (names : List String) : Expr → List Token → Expr → Prop
  | stop {acc : Expr} : IsTermTail names acc [] acc
  | more {acc right e : Expr} {t : Token} {ts us : List Token} :
      isOneOf t ["*", "/"] = true → IsFactor names ts right →
      IsTermTail names (.binary t.text acc right) us e → IsTermTail names acc (t :: (ts ++ us)) e

/-- `Factor := Primary ('^' Factor)?`. -/
inductive IsFactor (names : List String) : List Token → Expr → Prop
  | primary {ts : List Token} {e : Expr} : IsPrimary names ts e → IsFactor names ts e
  | power {ts us : List Token} {t : Token} {base exponent : Expr} :
      IsPrimary names ts base → t.isOperator "^" = true → IsFactor names us exponent →
      IsFactor names (ts ++ t :: us) (.binary "^" base exponent)

/-- `Primary := ('-' | '+') Primary | NUMBER | VARIABLE | FUNCTION '(' … ')' | '(' Expr ')'`. -/
inductive IsPrimary (names : List String) : List Token → Expr → Prop
  | neg {t : Token} {ts : List Token} {e : Expr} :
      t.isOperator "-" = true → IsPrimary names ts e → IsPrimary names (t :: ts) (.unary "-" e)
  | pos {t : Token} {ts : List Token} {e : Expr} :
      t.isOperator "+" = true → IsPrimary names ts e → IsPrimary names (t :: ts) e
  | num {t : Token} {v : Float} : t.kind = .number v → IsPrimary names [t] (.num v)
  | var {t : Token} {i : Nat} :
      t.kind = .variable → lastIndex? names t.text = some i → IsPrimary names [t] (.var i t.text)
  | callEmpty {t p c : Token} :
      t.kind = .function → p.kind = .openParen → c.kind = .closeParen →
      IsPrimary names [t, p, c] (.call t.text [])
  | call {t p : Token} {ts : List Token} {args : List Expr} :
      t.kind = .function → p.kind = .openParen → IsArgs names ts args →
      IsPrimary names (t :: p :: ts) (.call t.text args)
  | paren {p c : Token} {ts : List Token} {e : Expr} :
      p.kind = .openParen → IsExpr names ts e → c.kind = .closeParen →
      IsPrimary names (p :: (ts ++ [c])) e

/-- The arguments of a call after its opening parenthesis: `Expr (',' Expr)* ')'`. -/
inductive IsArgs (names : List String) : List Token → List Expr → Prop
  | last {ts : List Token} {c : Token} {e : Expr} :
      IsExpr names ts e → c.kind = .closeParen → IsArgs names (ts ++ [c]) [e]
  | more {ts us : List Token} {c : Token} {e : Expr} {args : List Expr} :
      IsExpr names ts e → c.kind = .comma → IsArgs names us args →
      IsArgs names (ts ++ c :: us) (e :: args)

end

/-- A viable prefix: the start of some sentence followed by an end token. -/
def Viable (names : List String) (us : List Token) : Prop :=
  ∃ s e fin, IsExpr names s e ∧ fin.kind = .finish ∧ us <+: s ++ [fin]

/-- Every variable among the tokens is one of the declared names. -/
def Declared (names : List String) (ts : List Token) : Prop :=
  ∀ t ∈ ts, t.kind = .variable → t.text ∈ names

/-- No token of the list is the end token. -/
def Unended (ts : List Token) : Prop := ∀ t ∈ ts, t.isFinish = false

section Tokens

variable {t : Token}

theorem Token.isFinish_of_kind {k : TokenKind} (h : t.kind = k) (hk : k ≠ .finish) :
    t.isFinish = false := by
  unfold Token.isFinish
  rw [h]
  cases k <;> simp_all

theorem Token.kind_of_isOperator {op : String} (h : t.isOperator op = true) :
    t.kind = .operator ∧ t.text = op := by
  unfold Token.isOperator at h
  split at h
  · exact ⟨by assumption, by simpa using h⟩
  · cases h

theorem isOneOf_iff {ops : List String} :
    isOneOf t ops = true ↔ t.kind = .operator ∧ t.text ∈ ops := by
  unfold isOneOf
  constructor
  · intro h
    obtain ⟨op, hop, ht⟩ := List.any_eq_true.1 h
    obtain ⟨hk, rfl⟩ := Token.kind_of_isOperator ht
    exact ⟨hk, hop⟩
  · rintro ⟨hk, hop⟩
    exact List.any_eq_true.2 ⟨t.text, hop, by simp [Token.isOperator, hk]⟩

theorem Token.isFinish_of_isOperator {op : String} (h : t.isOperator op = true) :
    t.isFinish = false :=
  Token.isFinish_of_kind (Token.kind_of_isOperator h).1 (by simp)

theorem Token.isFinish_of_isOneOf {ops : List String} (h : isOneOf t ops = true) :
    t.isFinish = false :=
  Token.isFinish_of_kind (isOneOf_iff.1 h).1 (by simp)

end Tokens

theorem Unended.nil : Unended [] := by
  intro t ht
  cases ht

theorem Unended.cons {t : Token} {ts : List Token} (ht : t.isFinish = false) (h : Unended ts) :
    Unended (t :: ts) := by
  intro u hu
  rcases List.mem_cons.1 hu with rfl | hu
  · exact ht
  · exact h u hu

theorem Unended.append {ts us : List Token} (h : Unended ts) (h' : Unended us) :
    Unended (ts ++ us) := by
  intro t ht
  rcases List.mem_append.1 ht with ht | ht
  · exact h t ht
  · exact h' t ht

mutual

/-- A phrase holds no end token: the grammar's terminals are all of other classes. -/
theorem IsExpr.unended {names : List String} {ts : List Token} {e : Expr} :
    IsExpr names ts e → Unended ts
  | .chain h₁ h₂ => h₁.unended.append h₂.unended

theorem IsExprTail.unended {names : List String} {acc e : Expr} {ts : List Token} :
    IsExprTail names acc ts e → Unended ts
  | .stop => Unended.nil
  | .more ht h₁ h₂ => (h₁.unended.append h₂.unended).cons (Token.isFinish_of_isOneOf ht)

theorem IsTerm.unended {names : List String} {ts : List Token} {e : Expr} :
    IsTerm names ts e → Unended ts
  | .chain h₁ h₂ => h₁.unended.append h₂.unended

theorem IsTermTail.unended {names : List String} {acc e : Expr} {ts : List Token} :
    IsTermTail names acc ts e → Unended ts
  | .stop => Unended.nil
  | .more ht h₁ h₂ => (h₁.unended.append h₂.unended).cons (Token.isFinish_of_isOneOf ht)

theorem IsFactor.unended {names : List String} {ts : List Token} {e : Expr} :
    IsFactor names ts e → Unended ts
  | .primary h => h.unended
  | .power h₁ ht h₂ => h₁.unended.append (h₂.unended.cons (Token.isFinish_of_isOperator ht))

theorem IsPrimary.unended {names : List String} {ts : List Token} {e : Expr} :
    IsPrimary names ts e → Unended ts
  | .neg ht h => h.unended.cons (Token.isFinish_of_isOperator ht)
  | .pos ht h => h.unended.cons (Token.isFinish_of_isOperator ht)
  | .num ht => Unended.nil.cons (Token.isFinish_of_kind ht (by simp))
  | .var ht _ => Unended.nil.cons (Token.isFinish_of_kind ht (by simp))
  | .callEmpty ht hp hc =>
    ((Unended.nil.cons (Token.isFinish_of_kind hc (by simp))).cons
      (Token.isFinish_of_kind hp (by simp))).cons (Token.isFinish_of_kind ht (by simp))
  | .call ht hp h =>
    (h.unended.cons (Token.isFinish_of_kind hp (by simp))).cons
      (Token.isFinish_of_kind ht (by simp))
  | .paren hp h hc =>
    (h.unended.append (Unended.nil.cons (Token.isFinish_of_kind hc (by simp)))).cons
      (Token.isFinish_of_kind hp (by simp))

theorem IsArgs.unended {names : List String} {ts : List Token} {args : List Expr} :
    IsArgs names ts args → Unended ts
  | .last h hc => h.unended.append (Unended.nil.cons (Token.isFinish_of_kind hc (by simp)))
  | .more h hc h' => h.unended.append (h'.unended.cons (Token.isFinish_of_kind hc (by simp)))

end

/-- A `+ -` chain is empty or starts with its operator. -/
theorem IsExprTail.leads {names : List String} {acc e : Expr} {us : List Token}
    (h : IsExprTail names acc us e) :
    us = [] ∨ ∃ t rest, us = t :: rest ∧ isOneOf t ["+", "-"] = true := by
  cases h with
  | stop => exact .inl rfl
  | more ht _ _ => exact .inr ⟨_, _, rfl, ht⟩

/-- A `* /` chain is empty or starts with its operator. -/
theorem IsTermTail.leads {names : List String} {acc e : Expr} {us : List Token}
    (h : IsTermTail names acc us e) :
    us = [] ∨ ∃ t rest, us = t :: rest ∧ isOneOf t ["*", "/"] = true := by
  cases h with
  | stop => exact .inl rfl
  | more ht _ _ => exact .inr ⟨_, _, rfl, ht⟩

/-- A primary reads at least one token. -/
theorem IsPrimary.ne_nil {names : List String} {ts : List Token} {e : Expr}
    (h : IsPrimary names ts e) : ts ≠ [] := by
  cases h <;> simp

/-- An argument list reads at least its closing parenthesis. -/
theorem IsArgs.ne_nil {names : List String} {ts : List Token} {args : List Expr}
    (h : IsArgs names ts args) : ts ≠ [] := by
  cases h <;> simp

/-- A phrase that starts with a token that can open an operand: neither a comma nor a closing
parenthesis. Every phrase of the grammar does. -/
def Opens (ts : List Token) : Prop :=
  ∃ t rest, ts = t :: rest ∧ t.kind ≠ .comma ∧ t.kind ≠ .closeParen

theorem Opens.append {ts us : List Token} (h : Opens ts) : Opens (ts ++ us) := by
  obtain ⟨t, rest, rfl, h₁, h₂⟩ := h
  exact ⟨t, rest ++ us, rfl, h₁, h₂⟩

section Opening

variable {names : List String}

theorem IsPrimary.opens {ts : List Token} {e : Expr} (h : IsPrimary names ts e) : Opens ts := by
  cases h with
  | neg ht _ | pos ht _ =>
    have hk := (Token.kind_of_isOperator ht).1
    exact ⟨_, _, rfl, by simp [hk], by simp [hk]⟩
  | num hk | var hk _ | callEmpty hk _ _ | call hk _ _ | paren hk _ _ =>
    exact ⟨_, _, rfl, by simp [hk], by simp [hk]⟩

theorem IsFactor.opens {ts : List Token} {e : Expr} (h : IsFactor names ts e) : Opens ts := by
  cases h with
  | primary h => exact h.opens
  | power h _ _ => exact h.opens.append

theorem IsTerm.opens {ts : List Token} {e : Expr} (h : IsTerm names ts e) : Opens ts := by
  cases h with
  | chain h _ => exact h.opens.append

theorem IsExpr.opens {ts : List Token} {e : Expr} (h : IsExpr names ts e) : Opens ts := by
  cases h with
  | chain h _ => exact h.opens.append

theorem IsArgs.opens {ts : List Token} {args : List Expr} (h : IsArgs names ts args) :
    Opens ts := by
  cases h with
  | last h _ | more h _ _ => exact h.opens.append

end Opening

/-- A declared name has a last position. -/
theorem lastIndex_of_mem {names : List String} {x : String} (h : x ∈ names) :
    ∃ i, lastIndex? names x = some i := by
  let f : Option Nat → String × Nat → Option Nat := fun acc p => if p.1 == x then some p.2 else acc
  -- once a position is found, later pairs only replace it by another one
  have hkeep : ∀ (l : List (String × Nat)) (init : Option Nat), init.isSome →
      (l.foldl f init).isSome := by
    intro l
    induction l with
    | nil => exact fun _ h => h
    | cons p l ih =>
      intro init hinit
      apply ih
      by_cases hp : p.1 = x <;> simp [f, hp, hinit]
  have hfind : ∀ (l : List (String × Nat)) (init : Option Nat), (∃ p ∈ l, p.1 = x) →
      (l.foldl f init).isSome := by
    intro l
    induction l with
    | nil => simp
    | cons p l ih =>
      rintro init ⟨q, hq, hqx⟩
      rw [List.foldl_cons]
      by_cases hp : p.1 = x
      · exact hkeep l _ (by simp [f, hp])
      · rcases List.mem_cons.1 hq with rfl | hq
        · exact absurd hqx hp
        · exact ih _ ⟨q, hq, hqx⟩
  have hmem : ∃ p ∈ names.zipIdx, p.1 = x := by
    rw [← List.zipIdx_map_fst 0 names] at h
    exact List.mem_map.1 h
  exact Option.isSome_iff_exists.1 (hfind _ none hmem)

end ScalarDiff.Source
