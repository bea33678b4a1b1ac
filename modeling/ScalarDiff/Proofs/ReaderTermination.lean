import ScalarDiff.Proofs.ReaderDepth

/-!
# The reader stops on its own

Which productions a reading calls, and why the calls come to an end. `Grammar.Calls` has one
rule for each call in the productions' code, with the guard under which the code makes it: a
production that passes its depth check calls the production below it on the tokens it has, and
a call made after another reads what the other left.

Every call either reads past a token that is not the end token (a sign, an opening parenthesis,
a function name, a chain operator, `^` or a comma) or goes down to a production of lower rank on
part of the same tokens (`Grammar.Calls.readsPast_or_below`). So the pair (tokens left, rank)
falls in the lexicographic order along every call (`Grammar.Calls.potential_lt`), and no reading
makes an endless descent of calls. The depth and the nesting limit take no part in that pair.
Each call makes finitely many calls of its own, so the calls a production leads to, directly or
through others, are finitely many (`Grammar.reach_finite`): every production returns.

The nesting limit only cuts calls off: a call made under any limit is made under the limit that
no depth reaches (`Grammar.Calls.unlimited`), where no depth check refuses. The limit is not what
ends a reading.

The relation is the reader's own: one step of the reader by its equations (`Grammar.unfold`)
asks about no call but those `Grammar.Calls` lists (`Grammar.unfold_congr`), so the reader is
the one solution of its equations (`Grammar.read_unique`).
-/

namespace ScalarDiff.Source

open ScalarDiff

/-- A production of the reader, with what its loop carries: the tree so far of a chain, the name
and the arguments so far of a call. -/
inductive Production where
  | expr
  | exprTail (acc : Expr)
  | term
  | termTail (acc : Expr)
  | factor
  | primary
  | arguments (name : String) (acc : List Expr)

/-- The rank of a production among those that read the same tokens: `Expr` above `Term` above
`Factor` above `Primary`, and the argument loop above `Expr`, which it calls first on the tokens
it has. The chain loops rank with `Primary`, as each pass reads its operator before any call.
These are the offsets of the productions' termination measures. -/
@[simp]
def Production.rank : Production → Nat
  | .arguments _ _ => 4
  | .expr => 3
  | .term => 2
  | .factor => 1
  | .primary => 0
  | .exprTail _ => 0
  | .termTail _ => 0

/-- A call of a production: at a nesting depth, on the tokens left. -/
structure Call where
  production : Production
  depth : Nat
  tokens : List Token

namespace Call

/-- What falls along the reader's calls: the number of tokens left, then the rank. -/
def potential (c : Call) : Nat × Nat := (c.tokens.length, c.production.rank)

/-- `c'` reads only tokens after the first token of `c`, and that token is not the end token. -/
def ReadsPast (c' c : Call) : Prop :=
  ∃ t rest, c.tokens = t :: rest ∧ t.isFinish = false ∧ c'.tokens <:+ rest

/-- `c'` is a production of lower rank than `c`, on a part of the tokens of `c`. -/
def Below (c' c : Call) : Prop :=
  c'.tokens <:+ c.tokens ∧ c'.production.rank < c.production.rank

/-- A call on the tokens after `pre ++ [u]`, none of which is the end token, reads past the first
token: `pre` is empty and it is `u`, or it is the first of `pre`. -/
theorem readsPast_of_split {c c' : Call} {pre rest : List Token} {u : Token}
    (hts : c.tokens = pre ++ u :: rest) (hpre : Unended pre) (hu : u.isFinish = false)
    (hc : c'.tokens <:+ rest) : c'.ReadsPast c := by
  cases pre with
  | nil => exact ⟨u, rest, hts, hu, hc⟩
  | cons t pre =>
    refine ⟨t, pre ++ u :: rest, hts, hpre t List.mem_cons_self, ?_⟩
    exact hc.trans ((List.suffix_cons u rest).trans (List.suffix_append pre _))

end Call

/-- `g.Calls c c'`: reading with `g`, the call `c` calls `c'`. -/
inductive Grammar.Calls (g : Grammar) : Call → Call → Prop
  -- an expression: a term, then its `+ -` chain on what the term left
  | exprTerm {d : Nat} {ts : List Token} (hd : g.depthCheck d ts = none) :
      g.Calls ⟨.expr, d, ts⟩ ⟨.term, d + 1, ts⟩
  | exprChain {d : Nat} {ts r : List Token} {first : Expr} (hd : g.depthCheck d ts = none)
      (h : (g.term (d + 1) ts).plain = .ok (first, r)) :
      g.Calls ⟨.expr, d, ts⟩ ⟨.exprTail first, d, r⟩
  -- a pass of the chain: after its operator a term, then the chain on what the term left
  | exprTailTerm {d : Nat} {acc : Expr} {t : Token} {rest : List Token}
      (hop : isOneOf t ["+", "-"] = true) :
      g.Calls ⟨.exprTail acc, d, t :: rest⟩ ⟨.term, d + 1, rest⟩
  | exprTailNext {d : Nat} {acc right : Expr} {t : Token} {rest r : List Token}
      (hop : isOneOf t ["+", "-"] = true) (h : (g.term (d + 1) rest).plain = .ok (right, r)) :
      g.Calls ⟨.exprTail acc, d, t :: rest⟩ ⟨.exprTail (.binary t.text acc right), d, r⟩
  -- a term: a factor, then its `* /` chain on what the factor left
  | termFactor {d : Nat} {ts : List Token} (hd : g.depthCheck d ts = none) :
      g.Calls ⟨.term, d, ts⟩ ⟨.factor, d + 1, ts⟩
  | termChain {d : Nat} {ts r : List Token} {first : Expr} (hd : g.depthCheck d ts = none)
      (h : (g.factor (d + 1) ts).plain = .ok (first, r)) :
      g.Calls ⟨.term, d, ts⟩ ⟨.termTail first, d, r⟩
  | termTailFactor {d : Nat} {acc : Expr} {t : Token} {rest : List Token}
      (hop : isOneOf t ["*", "/"] = true) :
      g.Calls ⟨.termTail acc, d, t :: rest⟩ ⟨.factor, d + 1, rest⟩
  | termTailNext {d : Nat} {acc right : Expr} {t : Token} {rest r : List Token}
      (hop : isOneOf t ["*", "/"] = true) (h : (g.factor (d + 1) rest).plain = .ok (right, r)) :
      g.Calls ⟨.termTail acc, d, t :: rest⟩ ⟨.termTail (.binary t.text acc right), d, r⟩
  -- a factor: a primary, and where `^` follows it, a factor after the `^`
  | factorPrimary {d : Nat} {ts : List Token} (hd : g.depthCheck d ts = none) :
      g.Calls ⟨.factor, d, ts⟩ ⟨.primary, d + 1, ts⟩
  | factorExponent {d : Nat} {ts rest : List Token} {base : Expr} {t : Token}
      (hd : g.depthCheck d ts = none) (h : (g.primary (d + 1) ts).plain = .ok (base, t :: rest))
      (ht : t.isOperator "^" = true) :
      g.Calls ⟨.factor, d, ts⟩ ⟨.factor, d + 1, rest⟩
  -- a primary: a primary after a sign, the arguments after a function name and a parenthesis
  -- not closed at once, at the primary's own depth, and an expression after a parenthesis
  | primarySign {d : Nat} {t : Token} {rest : List Token} (hd : g.depthCheck d (t :: rest) = none)
      (hk : t.kind = .operator) (hs : (t.text == "-" || t.text == "+") = true) :
      g.Calls ⟨.primary, d, t :: rest⟩ ⟨.primary, d + 1, rest⟩
  | primaryCall {d : Nat} {t p : Token} {afterOpen : List Token}
      (hd : g.depthCheck d (t :: p :: afterOpen) = none) (ht : t.kind = .function)
      (hp : p.kind = .openParen) (hc : ∀ c ∈ afterOpen.head?, c.kind ≠ .closeParen) :
      g.Calls ⟨.primary, d, t :: p :: afterOpen⟩ ⟨.arguments t.text [], d, afterOpen⟩
  | primaryParen {d : Nat} {p : Token} {rest : List Token}
      (hd : g.depthCheck d (p :: rest) = none) (hp : p.kind = .openParen) :
      g.Calls ⟨.primary, d, p :: rest⟩ ⟨.expr, d + 1, rest⟩
  -- the arguments: an expression, then after a comma, unless a comma or a closing parenthesis
  -- comes next, the rest of the arguments
  | argumentsExpr {d : Nat} {name : String} {acc : List Expr} {ts : List Token} :
      g.Calls ⟨.arguments name acc, d, ts⟩ ⟨.expr, d + 1, ts⟩
  | argumentsNext {d : Nat} {name : String} {acc : List Expr} {ts rest : List Token} {arg : Expr}
      {t : Token} (h : (g.expr (d + 1) ts).plain = .ok (arg, t :: rest)) (hk : t.kind = .comma)
      (hs : ∀ u ∈ rest.head?, u.kind ≠ .comma ∧ u.kind ≠ .closeParen) :
      g.Calls ⟨.arguments name acc, d, ts⟩ ⟨.arguments name (acc ++ [arg]), d, rest⟩

namespace Grammar

variable {g : Grammar}

/-! ## One call -/

/-- Every call reads past a token that is not the end token, or goes down in rank on part of
the same tokens. -/
theorem Calls.readsPast_or_below {c c' : Call} (h : g.Calls c c') :
    c'.ReadsPast c ∨ c'.Below c := by
  cases h with
  | exprTerm => exact .inr ⟨List.suffix_refl _, by simp⟩
  | exprChain _ h =>
    obtain ⟨c₁, hts, -⟩ := term_sound g h
    exact .inr ⟨⟨c₁, hts.symm⟩, by simp⟩
  | exprTailTerm hop =>
    exact .inl ⟨_, _, rfl, Token.isFinish_of_isOneOf hop, List.suffix_refl _⟩
  | exprTailNext hop h =>
    obtain ⟨c₁, hrest, -⟩ := term_sound g h
    exact .inl ⟨_, _, rfl, Token.isFinish_of_isOneOf hop, ⟨c₁, hrest.symm⟩⟩
  | termFactor => exact .inr ⟨List.suffix_refl _, by simp⟩
  | termChain _ h =>
    obtain ⟨c₁, hts, -⟩ := factor_sound g h
    exact .inr ⟨⟨c₁, hts.symm⟩, by simp⟩
  | termTailFactor hop =>
    exact .inl ⟨_, _, rfl, Token.isFinish_of_isOneOf hop, List.suffix_refl _⟩
  | termTailNext hop h =>
    obtain ⟨c₁, hrest, -⟩ := factor_sound g h
    exact .inl ⟨_, _, rfl, Token.isFinish_of_isOneOf hop, ⟨c₁, hrest.symm⟩⟩
  | factorPrimary => exact .inr ⟨List.suffix_refl _, by simp⟩
  | factorExponent _ h ht =>
    -- the primary read at least one token, and `^` after it
    obtain ⟨c₁, hts, hc₁⟩ := primary_sound g h
    exact .inl (Call.readsPast_of_split hts hc₁.unended (Token.isFinish_of_isOperator ht)
      (List.suffix_refl _))
  | primarySign _ hk _ =>
    exact .inl ⟨_, _, rfl, Token.isFinish_of_kind hk (by simp), List.suffix_refl _⟩
  | primaryCall _ ht _ _ =>
    exact .inl ⟨_, _, rfl, Token.isFinish_of_kind ht (by simp), List.suffix_cons _ _⟩
  | primaryParen _ hp =>
    exact .inl ⟨_, _, rfl, Token.isFinish_of_kind hp (by simp), List.suffix_refl _⟩
  | argumentsExpr => exact .inr ⟨List.suffix_refl _, by simp⟩
  | argumentsNext h hk _ =>
    obtain ⟨c₁, hts, hc₁⟩ := expr_sound g h
    exact .inl (Call.readsPast_of_split hts hc₁.unended (Token.isFinish_of_kind hk (by simp))
      (List.suffix_refl _))

/-- The pair (tokens left, rank) falls in the lexicographic order along every call. -/
theorem Calls.potential_lt {c c' : Call} (h : g.Calls c c') :
    Prod.Lex (· < ·) (· < ·) c'.potential c.potential := by
  rcases h.readsPast_or_below with ⟨t, rest, hts, -, hs⟩ | ⟨hs, hrank⟩
  · apply Prod.Lex.left
    have := hs.length_le
    rw [hts, List.length_cons]
    omega
  · rcases Nat.lt_or_eq_of_le hs.length_le with hlt | heq
    · exact Prod.Lex.left _ _ hlt
    · unfold Call.potential
      rw [heq]
      exact Prod.Lex.right _ hrank

/-- Under a limit that no depth reaches, every production's depth check lets it through. -/
theorem depthCheck_unbounded (d : Nat) (ts : List Token) :
    ({ g with limit := NestingLimit.unbounded } : Grammar).depthCheck d ts = none :=
  (depthCheck_eq_none _ d).2 (NestingLimit.unbounded_reached d)

/-- A nesting limit only cuts calls off: a call made under a limit is made under the limit that
no depth reaches. What a production returns there is what it returned, as it did not fail on
nesting. -/
theorem Calls.unlimited {c c' : Call} (h : g.Calls c c') :
    ({ g with limit := NestingLimit.unbounded } : Grammar).Calls c c' := by
  have hl : ∀ d, NestingLimit.unbounded.reached d = true → g.limit.reached d = true := by
    intro d hd
    rw [NestingLimit.unbounded_reached] at hd
    cases hd
  cases h with
  | exprTerm => exact .exprTerm (depthCheck_unbounded _ _)
  | exprChain _ h =>
    exact .exprChain (depthCheck_unbounded _ _)
      ((term_limit g hl _ _ (h ▸ not_failsOn_ok _ _)).trans h)
  | exprTailTerm hop => exact .exprTailTerm hop
  | exprTailNext hop h =>
    exact .exprTailNext hop ((term_limit g hl _ _ (h ▸ not_failsOn_ok _ _)).trans h)
  | termFactor => exact .termFactor (depthCheck_unbounded _ _)
  | termChain _ h =>
    exact .termChain (depthCheck_unbounded _ _)
      ((factor_limit g hl _ _ (h ▸ not_failsOn_ok _ _)).trans h)
  | termTailFactor hop => exact .termTailFactor hop
  | termTailNext hop h =>
    exact .termTailNext hop ((factor_limit g hl _ _ (h ▸ not_failsOn_ok _ _)).trans h)
  | factorPrimary => exact .factorPrimary (depthCheck_unbounded _ _)
  | factorExponent _ h ht =>
    exact .factorExponent (depthCheck_unbounded _ _)
      ((primary_limit g hl _ _ (h ▸ not_failsOn_ok _ _)).trans h) ht
  | primarySign _ hk hs => exact .primarySign (depthCheck_unbounded _ _) hk hs
  | primaryCall _ ht hp hc => exact .primaryCall (depthCheck_unbounded _ _) ht hp hc
  | primaryParen _ hp => exact .primaryParen (depthCheck_unbounded _ _) hp
  | argumentsExpr => exact .argumentsExpr
  | argumentsNext h hk hs =>
    exact .argumentsNext ((expr_limit g hl _ _ (h ▸ not_failsOn_ok _ _)).trans h) hk hs

/-- A call makes finitely many calls: a production calls the one below it and, at most once, a
production on what that one left; a primary, whose first token decides its one call, is given
all three it can make. -/
theorem callees_finite (g : Grammar) (c : Call) :
    ∃ l : List Call, ∀ c', g.Calls c c' → c' ∈ l := by
  obtain ⟨p, d, ts⟩ := c
  cases p with
  | expr =>
    refine ⟨⟨.term, d + 1, ts⟩ ::
      ((g.term (d + 1) ts).plain.toOption.map fun x => ⟨.exprTail x.1, d, x.2⟩).toList, ?_⟩
    intro c' h
    cases h <;> simp_all [Except.toOption]
  | exprTail acc =>
    cases ts with
    | nil => exact ⟨[], fun c' h => nomatch h⟩
    | cons t rest =>
      refine ⟨⟨.term, d + 1, rest⟩ :: ((g.term (d + 1) rest).plain.toOption.map fun x =>
        ⟨.exprTail (.binary t.text acc x.1), d, x.2⟩).toList, ?_⟩
      intro c' h
      cases h <;> simp_all [Except.toOption]
  | term =>
    refine ⟨⟨.factor, d + 1, ts⟩ ::
      ((g.factor (d + 1) ts).plain.toOption.map fun x => ⟨.termTail x.1, d, x.2⟩).toList, ?_⟩
    intro c' h
    cases h <;> simp_all [Except.toOption]
  | termTail acc =>
    cases ts with
    | nil => exact ⟨[], fun c' h => nomatch h⟩
    | cons t rest =>
      refine ⟨⟨.factor, d + 1, rest⟩ :: ((g.factor (d + 1) rest).plain.toOption.map fun x =>
        ⟨.termTail (.binary t.text acc x.1), d, x.2⟩).toList, ?_⟩
      intro c' h
      cases h <;> simp_all [Except.toOption]
  | factor =>
    refine ⟨⟨.primary, d + 1, ts⟩ ::
      ((g.primary (d + 1) ts).plain.toOption.map fun x => ⟨.factor, d + 1, x.2.tail⟩).toList, ?_⟩
    intro c' h
    cases h <;> simp_all [Except.toOption]
  | primary =>
    cases ts with
    | nil => exact ⟨[], fun c' h => nomatch h⟩
    | cons t rest =>
      refine ⟨[⟨.primary, d + 1, rest⟩, ⟨.expr, d + 1, rest⟩, ⟨.arguments t.text [], d, rest.tail⟩],
        ?_⟩
      intro c' h
      cases h <;> simp
  | arguments name acc =>
    refine ⟨⟨.expr, d + 1, ts⟩ :: ((g.expr (d + 1) ts).plain.toOption.map fun x =>
      ⟨.arguments name (acc ++ [x.1]), d, x.2.tail⟩).toList, ?_⟩
    intro c' h
    cases h <;> simp_all [Except.toOption]

/-! ## Whole readings -/

/-- The calls are well founded: the potential falls along each of them. -/
theorem calls_wellFounded (g : Grammar) : WellFounded (flip g.Calls) :=
  Subrelation.wf (fun h => h.potential_lt)
    (InvImage.wf Call.potential (WellFounded.prod_lex Nat.lt_wfRel.wf Nat.lt_wfRel.wf))

/-- No reading makes an endless descent of calls. -/
theorem no_endless_calls (g : Grammar) :
    ¬ ∃ chain : Nat → Call, ∀ i, g.Calls (chain i) (chain (i + 1)) := by
  rintro ⟨chain, hchain⟩
  obtain ⟨n, hn⟩ := @WellFounded.not_rel_apply_succ _ (flip g.Calls) ⟨g.calls_wellFounded⟩ chain
  exact hn (hchain n)

/-- The calls a call leads to, directly or through others, are finitely many: every production
returns after finitely many calls. -/
theorem reach_finite (g : Grammar) (c : Call) :
    ∃ l : List Call, ∀ c', Relation.TransGen g.Calls c c' → c' ∈ l := by
  classical
  -- along the calls, which are well founded: the calls of `c` and all those theirs lead to
  induction c using (calls_wellFounded g).induction with
  | h c ih =>
    obtain ⟨l, hl⟩ := g.callees_finite c
    refine ⟨l ++ l.flatMap fun b => if hb : g.Calls c b then (ih b hb).choose else [], ?_⟩
    intro c' hreach
    obtain ⟨b, hcb, hbc'⟩ := Relation.TransGen.head'_iff.1 hreach
    rcases hbc'.cases_head with rfl | ⟨e, hbe, hec'⟩
    · exact List.mem_append_left _ (hl _ hcb)
    · have hfar := (ih b hcb).choose_spec c' (Relation.TransGen.head' hbe hec')
      refine List.mem_append_right _ (List.mem_flatMap.2 ⟨b, hl b hcb, ?_⟩)
      rwa [dif_pos hcb]

/-! ## The calls are the reader's calls

The rules of `Grammar.Calls` are read off the productions' equations (`Grammar.expr_plain` and
its siblings). `Grammar.unfold` is one step of the reader: every production by its equation,
with each call it makes answered by an oracle. The reader is a fixed point of that step
(`read_eq_unfold`), and the step asks the oracle only about calls that `Grammar.Calls` lists
(`unfold_congr`), so the relation holds every call the reader makes. Being well founded, it
leaves the reader the one solution of its equations (`read_unique`).
-/

/-- What a call of a production reads: the tree and the tokens it leaves, or its error. -/
def read (g : Grammar) : Call → Except ParseError (Expr × List Token)
  | ⟨.expr, d, ts⟩ => (g.expr d ts).plain
  | ⟨.exprTail acc, d, ts⟩ => (g.exprTail d acc ts).plain
  | ⟨.term, d, ts⟩ => (g.term d ts).plain
  | ⟨.termTail acc, d, ts⟩ => (g.termTail d acc ts).plain
  | ⟨.factor, d, ts⟩ => (g.factor d ts).plain
  | ⟨.primary, d, ts⟩ => (g.primary d ts).plain
  | ⟨.arguments name acc, d, ts⟩ => (g.arguments name d acc ts).plain

/-- One step of the reader: the production of a call by its equation, each call it makes
answered by `o`. -/
def unfold (g : Grammar) (o : Call → Except ParseError (Expr × List Token)) :
    Call → Except ParseError (Expr × List Token)
  | ⟨.expr, d, ts⟩ =>
    match g.depthCheck d ts with
    | some e => .error e
    | none => o ⟨.term, d + 1, ts⟩ >>= fun x => o ⟨.exprTail x.1, d, x.2⟩
  | ⟨.exprTail acc, d, ts⟩ =>
    match ts with
    | t :: rest =>
      if isOneOf t ["+", "-"] then
        o ⟨.term, d + 1, rest⟩ >>= fun x => o ⟨.exprTail (.binary t.text acc x.1), d, x.2⟩
      else .ok (acc, t :: rest)
    | [] => .ok (acc, [])
  | ⟨.term, d, ts⟩ =>
    match g.depthCheck d ts with
    | some e => .error e
    | none => o ⟨.factor, d + 1, ts⟩ >>= fun x => o ⟨.termTail x.1, d, x.2⟩
  | ⟨.termTail acc, d, ts⟩ =>
    match ts with
    | t :: rest =>
      if isOneOf t ["*", "/"] then
        o ⟨.factor, d + 1, rest⟩ >>= fun x => o ⟨.termTail (.binary t.text acc x.1), d, x.2⟩
      else .ok (acc, t :: rest)
    | [] => .ok (acc, [])
  | ⟨.factor, d, ts⟩ =>
    match g.depthCheck d ts with
    | some e => .error e
    | none => o ⟨.primary, d + 1, ts⟩ >>= fun x =>
      match x.2 with
      | t :: rest =>
        if t.isOperator "^" then
          (fun y : Expr × List Token => (Expr.binary "^" x.1 y.1, y.2)) <$>
            o ⟨.factor, d + 1, rest⟩
        else .ok (x.1, t :: rest)
      | [] => .ok (x.1, [])
  | ⟨.primary, d, ts⟩ =>
    match g.depthCheck d ts with
    | some e => .error e
    | none =>
      match ts with
      | [] => .error (.atToken .unexpectedEnd (g.peek []))
      | t :: rest =>
        match t.kind with
        | .operator =>
          if t.text == "-" || t.text == "+" then
            (fun x : Expr × List Token =>
              (if t.text == "-" then .unary "-" x.1 else x.1, x.2)) <$> o ⟨.primary, d + 1, rest⟩
          else .error (.atToken .unexpectedToken t)
        | .number v => .ok (.num v, rest)
        | .variable =>
          match lastIndex? g.names t.text with
          | some i => .ok (.var i t.text, rest)
          | none => .error (.atToken (.unknownVariable t.text) t)
        | .function =>
          match rest with
          | p :: afterOpen =>
            match p.kind with
            | .openParen =>
              match afterOpen with
              | c :: afterClose =>
                match c.kind with
                | .closeParen => .ok (.call t.text [], afterClose)
                | _ => o ⟨.arguments t.text [], d, c :: afterClose⟩
              | [] => o ⟨.arguments t.text [], d, []⟩
            | _ => .error (.atToken .missingCallParen p)
          | [] => .error (.atToken .missingCallParen (g.peek []))
        | .openParen =>
          o ⟨.expr, d + 1, rest⟩ >>= fun x =>
            match x.2 with
            | c :: afterClose =>
              match c.kind with
              | .closeParen => .ok (x.1, afterClose)
              | _ => .error (.atToken .unclosedParen c)
            | [] => .error (.atToken .unclosedParen (g.peek []))
        | .finish => .error (.atToken .unexpectedEnd t)
        | _ => .error (.atToken .unexpectedToken t)
  | ⟨.arguments name acc, d, ts⟩ =>
    o ⟨.expr, d + 1, ts⟩ >>= fun x =>
      match x.2 with
      | t :: rest =>
        match t.kind with
        | .closeParen => .ok (.call name (acc ++ [x.1]), rest)
        | .comma =>
          if startsWith rest (fun k => match k with | .comma | .closeParen => true | _ => false)
          then .error (.atToken (.missingArgument name) (g.peek rest))
          else o ⟨.arguments name (acc ++ [x.1]), d, rest⟩
        | _ => .error (.atToken .badArgumentEnd t)
      | [] => .error (.atToken .badArgumentEnd (g.peek []))

/-- The reader is a fixed point of its step: each production is its equation. -/
theorem read_eq_unfold (g : Grammar) (c : Call) : g.read c = g.unfold g.read c := by
  obtain ⟨p, d, ts⟩ := c
  cases p with
  | expr => exact g.expr_plain d ts
  | exprTail acc => exact g.exprTail_plain d acc ts
  | term => exact g.term_plain d ts
  | termTail acc => exact g.termTail_plain d acc ts
  | factor => exact g.factor_plain d ts
  | primary => exact g.primary_plain d ts
  | arguments name acc => exact g.arguments_plain d name acc ts

/-- A step asks its oracle only about the calls `Grammar.Calls` lists: an oracle that answers
those as the reader does gives the reader's step. -/
theorem unfold_congr {o : Call → Except ParseError (Expr × List Token)} {c : Call}
    (ho : ∀ c', g.Calls c c' → o c' = g.read c') : g.unfold o c = g.unfold g.read c := by
  obtain ⟨p, d, ts⟩ := c
  cases p with
  | expr =>
    simp only [unfold]
    cases hd : g.depthCheck d ts with
    | some e => rfl
    | none =>
      rw [ho _ (.exprTerm hd)]
      cases hx : g.read ⟨.term, d + 1, ts⟩ with
      | error e => rfl
      | ok x => exact ho _ (.exprChain hd hx)
  | exprTail acc =>
    rcases ts with _ | ⟨t, rest⟩
    · rfl
    simp only [unfold]
    split
    · rename_i hop
      rw [ho _ (.exprTailTerm hop)]
      cases hx : g.read ⟨.term, d + 1, rest⟩ with
      | error e => rfl
      | ok x => exact ho _ (.exprTailNext hop hx)
    · rfl
  | term =>
    simp only [unfold]
    cases hd : g.depthCheck d ts with
    | some e => rfl
    | none =>
      rw [ho _ (.termFactor hd)]
      cases hx : g.read ⟨.factor, d + 1, ts⟩ with
      | error e => rfl
      | ok x => exact ho _ (.termChain hd hx)
  | termTail acc =>
    rcases ts with _ | ⟨t, rest⟩
    · rfl
    simp only [unfold]
    split
    · rename_i hop
      rw [ho _ (.termTailFactor hop)]
      cases hx : g.read ⟨.factor, d + 1, rest⟩ with
      | error e => rfl
      | ok x => exact ho _ (.termTailNext hop hx)
    · rfl
  | factor =>
    simp only [unfold]
    cases hd : g.depthCheck d ts with
    | some e => rfl
    | none =>
      rw [ho _ (.factorPrimary hd)]
      cases hx : g.read ⟨.primary, d + 1, ts⟩ with
      | error e => rfl
      | ok x =>
        obtain ⟨base, _ | ⟨t, rest⟩⟩ := x
        · rfl
        simp only [ok_bind]
        split
        · rename_i ht
          rw [ho _ (.factorExponent hd hx ht)]
        · rfl
  | primary =>
    simp only [unfold]
    cases hd : g.depthCheck d ts with
    | some e => rfl
    | none =>
      rcases ts with _ | ⟨t, rest⟩
      · rfl
      -- the first token picks the one call a primary makes
      dsimp only
      split
      · rename_i hk
        split
        · rename_i hs
          rw [ho _ (.primarySign hd hk hs)]
        · rfl
      all_goals try rfl
      · rename_i ht
        rcases rest with _ | ⟨p, afterOpen⟩
        · rfl
        dsimp only
        split
        · rename_i hp
          rcases afterOpen with _ | ⟨c, afterClose⟩
          · exact ho _ (.primaryCall hd ht hp (by simp))
          dsimp only
          split
          · rfl
          · rename_i hc
            exact ho _ (.primaryCall hd ht hp (by simpa using hc))
        · rfl
      · rename_i hp
        rw [ho _ (.primaryParen hd hp)]
  | arguments name acc =>
    simp only [unfold]
    rw [ho _ .argumentsExpr]
    cases hx : g.read ⟨.expr, d + 1, ts⟩ with
    | error e => rfl
    | ok x =>
      obtain ⟨arg, _ | ⟨t, rest⟩⟩ := x
      · rfl
      simp only [ok_bind]
      split
      · rfl
      · rename_i hk
        split
        · rfl
        · rename_i hs
          refine ho _ (.argumentsNext hx hk fun u hu => ?_)
          cases rest with
          | nil => cases hu
          | cons v more =>
            cases hu
            simp only [startsWith] at hs
            exact ⟨fun hv => by simp [hv] at hs, fun hv => by simp [hv] at hs⟩
      · rfl

/-- The reader is the one solution of its equations: the calls are well founded, and every call
a step makes is one of them. -/
theorem read_unique {f : Call → Except ParseError (Expr × List Token)}
    (hf : ∀ c, f c = g.unfold f c) : f = g.read := by
  funext c
  -- along the calls, which are well founded
  induction c using (calls_wellFounded g).induction with
  | h c ih => rw [hf c, unfold_congr fun c' hc => ih c' hc, ← read_eq_unfold]

/-- The reader stops on its own, whatever its nesting limit. Every call a production makes
either reads past a token that is not the end token or goes down in rank on part of the same
tokens; so the pair (tokens left, rank) falls in the lexicographic order along every call, and no
reading makes an endless descent of calls. A nesting limit only cuts calls off, as every call
made under it is made under the limit no depth reaches. A call leads to finitely many calls
in all, so every production returns. And these are the reader's own calls: the reader is its
equations, whose step asks only about the calls listed, so it is their one solution. -/
theorem calls_terminate (g : Grammar) :
    (∀ c c', g.Calls c c' → c'.ReadsPast c ∨ c'.Below c) ∧
    (∀ c c', g.Calls c c' → Prod.Lex (· < ·) (· < ·) c'.potential c.potential) ∧
    (¬ ∃ chain : Nat → Call, ∀ i, g.Calls (chain i) (chain (i + 1))) ∧
    (∀ c c', g.Calls c c' → ({ g with limit := NestingLimit.unbounded } : Grammar).Calls c c') ∧
    (∀ c, ∃ l : List Call, ∀ c', Relation.TransGen g.Calls c c' → c' ∈ l) ∧
    (∀ c o, (∀ c', g.Calls c c' → o c' = g.read c') → g.unfold o c = g.read c) ∧
    ∀ f, (∀ c, f c = g.unfold f c) → f = g.read :=
  ⟨fun _ _ h => h.readsPast_or_below, fun _ _ h => h.potential_lt, g.no_endless_calls,
    fun _ _ h => h.unlimited, g.reach_finite,
    fun c _ ho => (unfold_congr ho).trans (g.read_eq_unfold c).symm, fun _ hf => read_unique hf⟩

end Grammar

end ScalarDiff.Source
