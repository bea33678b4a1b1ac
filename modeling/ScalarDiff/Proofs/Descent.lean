import ScalarDiff.Proofs.Grammar
import ScalarDiff.Proofs.Outcome

/-!
# The reader's productions as plain recursions

Each production of the reader returns the tokens it leaves together with a proof that they are
no more than it was given, which is what makes the reader terminate. Here that proof is dropped
(`Parsed.plain`) and each production is restated as a recursion over the plain results of the
productions it calls. Every later proof about the reader goes through these equations.
-/

namespace ScalarDiff.Source

open ScalarDiff

/-- A production's result with the tokens it leaves as a plain list. -/
def Parsed.plain {ts : List Token} {α : Type} (p : Parsed ts α) :
    Except ParseError (α × List Token) :=
  (fun x => (x.1, x.2.1)) <$> p

/-- A production never leaves more tokens than it was given. -/
theorem Parsed.length_le {ts : List Token} {α : Type} {p : Parsed ts α} {a : α}
    {r : List Token} (h : p.plain = .ok (a, r)) : r.length ≤ ts.length := by
  cases p with
  | error e => cases h
  | ok x =>
    cases h
    exact x.2.2

theorem Token.isOperator_of_kind {t : Token} {op : String}
    (hk : t.kind = .operator) (ht : t.text = op) : t.isOperator op = true := by
  simp [Token.isOperator, hk, ht]

theorem head?_append_congr {c r r' : List Token} (h : r'.head? = r.head?) :
    (c ++ r').head? = (c ++ r).head? := by
  cases c <;> simp [h]

theorem startsWith_congr {ts us : List Token} {p : TokenKind → Bool} (h : ts.head? = us.head?) :
    startsWith ts p = startsWith us p := by
  cases ts <;> cases us <;> simp_all [startsWith]

namespace Grammar

variable (g : Grammar) (d : Nat)

theorem expr_plain (ts : List Token) :
    (g.expr d ts).plain =
      match g.depthCheck d ts with
      | some e => .error e
      | none => (g.term (d + 1) ts).plain >>= fun x => (g.exprTail d x.1 x.2).plain := by
  rw [Grammar.expr]
  cases g.depthCheck d ts with
  | some e => rfl
  | none =>
    cases g.term (d + 1) ts with
    | error e => rfl
    | ok x =>
      obtain ⟨first, r, hr⟩ := x
      simp only [Parsed.plain, map_ok, ok_bind]
      cases g.exprTail d first r with
      | error e => rfl
      | ok y => rfl

theorem exprTail_plain (acc : Expr) (ts : List Token) :
    (g.exprTail d acc ts).plain =
      match ts with
      | t :: rest =>
        if isOneOf t ["+", "-"] then
          (g.term (d + 1) rest).plain >>= fun x =>
            (g.exprTail d (.binary t.text acc x.1) x.2).plain
        else .ok (acc, t :: rest)
      | [] => .ok (acc, []) := by
  rw [Grammar.exprTail.eq_def]
  cases ts with
  | nil => rfl
  | cons t rest =>
    simp only
    split
    · cases g.term (d + 1) rest with
      | error e => rfl
      | ok x =>
        obtain ⟨right, r, hr⟩ := x
        simp only [Parsed.plain, map_ok, ok_bind]
        cases g.exprTail d (.binary t.text acc right) r with
        | error e => rfl
        | ok y => rfl
    · rfl

theorem term_plain (ts : List Token) :
    (g.term d ts).plain =
      match g.depthCheck d ts with
      | some e => .error e
      | none => (g.factor (d + 1) ts).plain >>= fun x => (g.termTail d x.1 x.2).plain := by
  rw [Grammar.term]
  cases g.depthCheck d ts with
  | some e => rfl
  | none =>
    cases g.factor (d + 1) ts with
    | error e => rfl
    | ok x =>
      obtain ⟨first, r, hr⟩ := x
      simp only [Parsed.plain, map_ok, ok_bind]
      cases g.termTail d first r with
      | error e => rfl
      | ok y => rfl

theorem termTail_plain (acc : Expr) (ts : List Token) :
    (g.termTail d acc ts).plain =
      match ts with
      | t :: rest =>
        if isOneOf t ["*", "/"] then
          (g.factor (d + 1) rest).plain >>= fun x =>
            (g.termTail d (.binary t.text acc x.1) x.2).plain
        else .ok (acc, t :: rest)
      | [] => .ok (acc, []) := by
  rw [Grammar.termTail.eq_def]
  cases ts with
  | nil => rfl
  | cons t rest =>
    simp only
    split
    · cases g.factor (d + 1) rest with
      | error e => rfl
      | ok x =>
        obtain ⟨right, r, hr⟩ := x
        simp only [Parsed.plain, map_ok, ok_bind]
        cases g.termTail d (.binary t.text acc right) r with
        | error e => rfl
        | ok y => rfl
    · rfl

theorem factor_plain (ts : List Token) :
    (g.factor d ts).plain =
      match g.depthCheck d ts with
      | some e => .error e
      | none => (g.primary (d + 1) ts).plain >>= fun x =>
        match x.2 with
        | t :: rest =>
          if t.isOperator "^" then
            (fun y : Expr × List Token => (Expr.binary "^" x.1 y.1, y.2)) <$>
              (g.factor (d + 1) rest).plain
          else .ok (x.1, t :: rest)
        | [] => .ok (x.1, []) := by
  rw [Grammar.factor]
  cases g.depthCheck d ts with
  | some e => rfl
  | none =>
    cases g.primary (d + 1) ts with
    | error e => rfl
    | ok x =>
      obtain ⟨base, r, hr⟩ := x
      cases r with
      | nil => rfl
      | cons t rest =>
        simp only [Parsed.plain, map_ok, ok_bind]
        split
        · cases g.factor (d + 1) rest with
          | error e => rfl
          | ok y => rfl
        · rfl

theorem arguments_plain (name : String) (acc : List Expr) (ts : List Token) :
    (g.arguments name d acc ts).plain =
      (g.expr (d + 1) ts).plain >>= fun x =>
        match x.2 with
        | t :: rest =>
          match t.kind with
          | .closeParen => .ok (.call name (acc ++ [x.1]), rest)
          | .comma =>
            if startsWith rest (fun k => match k with | .comma | .closeParen => true | _ => false)
            then .error (.atToken (.missingArgument name) (g.peek rest))
            else (g.arguments name d (acc ++ [x.1]) rest).plain
          | _ => .error (.atToken .badArgumentEnd t)
        | [] => .error (.atToken .badArgumentEnd (g.peek [])) := by
  rw [Grammar.arguments]
  cases g.expr (d + 1) ts with
  | error e => rfl
  | ok x =>
    obtain ⟨arg, r, hr⟩ := x
    cases r with
    | nil => rfl
    | cons t rest =>
      simp only [Parsed.plain, map_ok, ok_bind]
      cases g.arguments name d (acc ++ [arg]) rest <;> cases t.kind <;> try rfl
      -- after a comma the two sides test the next token in two spellings: decide it by class
      all_goals
        cases rest with
        | nil => rfl
        | cons u more =>
          obtain ⟨k, text, pos, stop⟩ := u
          cases k <;> rfl

theorem primary_plain (ts : List Token) :
    (g.primary d ts).plain =
      match g.depthCheck d ts with
      | some e => .error e
      | none =>
        match ts with
        | [] => .error (.atToken .unexpectedEnd (g.peek []))
        | t :: rest =>
          match t.kind with
          | .operator =>
            if t.text == "-" || t.text == "+" then
              (fun x : Expr × List Token =>
                (if t.text == "-" then .unary "-" x.1 else x.1, x.2)) <$>
                (g.primary (d + 1) rest).plain
            else .error (.atToken .unexpectedToken t)
          | .number v => .ok (.num v, rest)
          | .variable =>
            match lastIndex? g.names t.text with
            | some i => .ok (.var i t.text, rest)
            | none => .error (.atToken (.unknownVariable t.text) t)
          | .function =>
            match rest with
            | p :: afterOpen =>
              match p.kind with
              | .openParen =>
                match afterOpen with
                | c :: afterClose =>
                  match c.kind with
                  | .closeParen => .ok (.call t.text [], afterClose)
                  | _ => (g.arguments t.text d [] (c :: afterClose)).plain
                | [] => (g.arguments t.text d [] []).plain
              | _ => .error (.atToken .missingCallParen p)
            | [] => .error (.atToken .missingCallParen (g.peek []))
          | .openParen =>
            (g.expr (d + 1) rest).plain >>= fun x =>
              match x.2 with
              | c :: afterClose =>
                match c.kind with
                | .closeParen => .ok (x.1, afterClose)
                | _ => .error (.atToken .unclosedParen c)
              | [] => .error (.atToken .unclosedParen (g.peek []))
          | .finish => .error (.atToken .unexpectedEnd t)
          | _ => .error (.atToken .unexpectedToken t) := by
  rw [Grammar.primary.eq_def]
  cases g.depthCheck d ts with
  | some e => rfl
  | none =>
    cases ts with
    | nil => rfl
    | cons t rest =>
      simp only
      cases t.kind with
      | operator =>
        simp only
        split
        · cases g.primary (d + 1) rest with
          | error e => rfl
          | ok x => rfl
        · rfl
      | «variable» => cases lastIndex? g.names t.text <;> rfl
      | function =>
        cases rest with
        | nil => rfl
        | cons p afterOpen =>
          simp only
          cases p.kind with
          | openParen =>
            simp only
            cases afterOpen with
            | nil =>
              simp only
              cases g.arguments t.text d [] [] with
              | error e => rfl
              | ok x => rfl
            | cons c afterClose =>
              simp only
              cases c.kind with
              | closeParen => rfl
              | _ =>
                cases g.arguments t.text d [] (c :: afterClose) with
                | error e => rfl
                | ok x => rfl
          | _ => rfl
      | openParen =>
        cases g.expr (d + 1) rest with
        | error e => rfl
        | ok x =>
          obtain ⟨inner, r, hr⟩ := x
          cases r with
          | nil => rfl
          | cons c afterClose =>
            simp only [Parsed.plain, map_ok, ok_bind]
            cases c.kind <;> rfl
      | _ => rfl

/-! ### One equation per branch

A production entered below the nesting limit takes the branch its first token selects; these
are the branches, each as one equation. The limit is read alone, never the tokens. -/

theorem depthCheck_eq_none {ts : List Token} :
    g.depthCheck d ts = none ↔ g.limit.reached d = false := by
  unfold depthCheck
  split <;> simp_all

theorem depthCheck_of_reached {ts : List Token} (hd : g.limit.reached d = true) :
    g.depthCheck d ts = some (.atToken (.tooDeep g.limit) (g.peek ts)) := by
  simp [depthCheck, hd]

variable {d}

section Branches

variable (hd : g.limit.reached d = false)
include hd

theorem expr_within (ts : List Token) :
    (g.expr d ts).plain = (g.term (d + 1) ts).plain >>= fun x => (g.exprTail d x.1 x.2).plain := by
  rw [expr_plain, (depthCheck_eq_none g d).2 hd]

theorem term_within (ts : List Token) :
    (g.term d ts).plain =
      (g.factor (d + 1) ts).plain >>= fun x => (g.termTail d x.1 x.2).plain := by
  rw [term_plain, (depthCheck_eq_none g d).2 hd]

theorem factor_within (ts : List Token) :
    (g.factor d ts).plain = (g.primary (d + 1) ts).plain >>= fun x =>
      match x.2 with
      | t :: rest =>
        if t.isOperator "^" then
          (fun y : Expr × List Token => (Expr.binary "^" x.1 y.1, y.2)) <$>
            (g.factor (d + 1) rest).plain
        else .ok (x.1, t :: rest)
      | [] => .ok (x.1, []) := by
  rw [factor_plain, (depthCheck_eq_none g d).2 hd]

theorem primary_sign {t : Token} {rest : List Token} (hk : t.kind = .operator)
    (hs : (t.text == "-" || t.text == "+") = true) :
    (g.primary d (t :: rest)).plain =
      (fun x : Expr × List Token => (if t.text == "-" then .unary "-" x.1 else x.1, x.2)) <$>
        (g.primary (d + 1) rest).plain := by
  rw [primary_plain, (depthCheck_eq_none g d).2 hd]
  simp only [hk, hs, if_true]

theorem primary_number {t : Token} {v : Float} {rest : List Token} (hk : t.kind = .number v) :
    (g.primary d (t :: rest)).plain = .ok (.num v, rest) := by
  rw [primary_plain, (depthCheck_eq_none g d).2 hd]
  simp only [hk]

theorem primary_variable {t : Token} {i : Nat} {rest : List Token} (hk : t.kind = .variable)
    (hi : lastIndex? g.names t.text = some i) :
    (g.primary d (t :: rest)).plain = .ok (.var i t.text, rest) := by
  rw [primary_plain, (depthCheck_eq_none g d).2 hd]
  simp only [hk, hi]

theorem primary_callEmpty {t p c : Token} {rest : List Token} (ht : t.kind = .function)
    (hp : p.kind = .openParen) (hc : c.kind = .closeParen) :
    (g.primary d (t :: p :: c :: rest)).plain = .ok (.call t.text [], rest) := by
  rw [primary_plain, (depthCheck_eq_none g d).2 hd]
  simp only [ht, hp, hc]

/-- A call whose parenthesis is not closed at once reads its arguments. -/
theorem primary_call {t p : Token} {afterOpen : List Token} (ht : t.kind = .function)
    (hp : p.kind = .openParen) (hc : ∀ c ∈ afterOpen.head?, c.kind ≠ .closeParen) :
    (g.primary d (t :: p :: afterOpen)).plain = (g.arguments t.text d [] afterOpen).plain := by
  rw [primary_plain, (depthCheck_eq_none g d).2 hd]
  simp only [ht, hp]
  cases afterOpen with
  | nil => rfl
  | cons c afterClose =>
    have hc' : c.kind ≠ .closeParen := hc c rfl
    dsimp only
    split
    · next heq => exact absurd heq hc'
    · rfl

theorem primary_paren {p : Token} {rest : List Token} (hp : p.kind = .openParen) :
    (g.primary d (p :: rest)).plain = (g.expr (d + 1) rest).plain >>= fun x =>
      match x.2 with
      | c :: afterClose =>
        match c.kind with
        | .closeParen => .ok (x.1, afterClose)
        | _ => .error (.atToken .unclosedParen c)
      | [] => .error (.atToken .unclosedParen (g.peek [])) := by
  rw [primary_plain, (depthCheck_eq_none g d).2 hd]
  simp only [hp]

end Branches

section Deep

/-! At or beyond the limit a production refuses at once, at the token it is looking at. -/

variable {g} (hd : g.limit.reached d = true) (ts : List Token)
include hd

theorem expr_deep : (g.expr d ts).plain = .error (.atToken (.tooDeep g.limit) (g.peek ts)) := by
  simp only [expr_plain, depthCheck_of_reached g d hd]

theorem term_deep : (g.term d ts).plain = .error (.atToken (.tooDeep g.limit) (g.peek ts)) := by
  simp only [term_plain, depthCheck_of_reached g d hd]

theorem factor_deep : (g.factor d ts).plain = .error (.atToken (.tooDeep g.limit) (g.peek ts)) := by
  simp only [factor_plain, depthCheck_of_reached g d hd]

theorem primary_deep :
    (g.primary d ts).plain = .error (.atToken (.tooDeep g.limit) (g.peek ts)) := by
  simp only [primary_plain, depthCheck_of_reached g d hd]

end Deep

section Limit

variable {g}

/-- A production that succeeds was entered below the nesting limit. -/
theorem below_limit_of_ok {α : Type} {o : Except ParseError α} {x : α} {t : Token}
    (h : o = .ok x)
    (hdeep : g.limit.reached d = true → o = .error (.atToken (.tooDeep g.limit) t)) :
    g.limit.reached d = false := by
  cases hd : g.limit.reached d
  · rfl
  · rw [hdeep hd] at h
    cases h

/-- So was one that refuses for any reason but nesting. -/
theorem below_limit {α : Type} {o : Except ParseError α} {err : ParseError} {t : Token}
    (h : o = .error err) (hk : err.problem.kind ≠ .resource)
    (hdeep : g.limit.reached d = true → o = .error (.atToken (.tooDeep g.limit) t)) :
    g.limit.reached d = false := by
  cases hd : g.limit.reached d
  · rfl
  · rw [hdeep hd] at h
    cases h
    exact absurd rfl hk

end Limit

theorem exprTail_nil (acc : Expr) : (g.exprTail d acc []).plain = .ok (acc, []) := by
  rw [exprTail_plain]

theorem exprTail_more {acc : Expr} {t : Token} {rest : List Token}
    (hop : isOneOf t ["+", "-"] = true) :
    (g.exprTail d acc (t :: rest)).plain = (g.term (d + 1) rest).plain >>= fun x =>
      (g.exprTail d (.binary t.text acc x.1) x.2).plain := by
  rw [exprTail_plain]
  simp only [hop, if_true]

theorem exprTail_stop {acc : Expr} {t : Token} {rest : List Token}
    (hop : isOneOf t ["+", "-"] = false) :
    (g.exprTail d acc (t :: rest)).plain = .ok (acc, t :: rest) := by
  rw [exprTail_plain]
  simp only [hop, Bool.false_eq_true, if_false]

theorem termTail_nil (acc : Expr) : (g.termTail d acc []).plain = .ok (acc, []) := by
  rw [termTail_plain]

theorem termTail_more {acc : Expr} {t : Token} {rest : List Token}
    (hop : isOneOf t ["*", "/"] = true) :
    (g.termTail d acc (t :: rest)).plain = (g.factor (d + 1) rest).plain >>= fun x =>
      (g.termTail d (.binary t.text acc x.1) x.2).plain := by
  rw [termTail_plain]
  simp only [hop, if_true]

theorem termTail_stop {acc : Expr} {t : Token} {rest : List Token}
    (hop : isOneOf t ["*", "/"] = false) :
    (g.termTail d acc (t :: rest)).plain = .ok (acc, t :: rest) := by
  rw [termTail_plain]
  simp only [hop, Bool.false_eq_true, if_false]

/-! ### Soundness: what a production reads is a phrase of its kind -/

mutual

theorem expr_sound {d : Nat} {ts r : List Token} {e : Expr}
    (h : (g.expr d ts).plain = .ok (e, r)) : ∃ c, ts = c ++ r ∧ IsExpr g.names c e := by
  have hd := below_limit_of_ok h (expr_deep · ts)
  rw [expr_within g hd] at h
  obtain ⟨⟨first, r₁⟩, h₁, h₂⟩ := bind_eq_ok.1 h
  dsimp only at h₂
  have hlen := Parsed.length_le h₁
  obtain ⟨c₁, hts, hc₁⟩ := term_sound h₁
  obtain ⟨c₂, hr₁, hc₂⟩ := exprTail_sound h₂
  exact ⟨c₁ ++ c₂, by rw [hts, hr₁, List.append_assoc], .chain hc₁ hc₂⟩
termination_by ts.length * 5 + 3
decreasing_by all_goals (try subst_vars); (try simp only [List.length_append]); omega

theorem exprTail_sound {d : Nat} {acc : Expr} {ts r : List Token} {e : Expr}
    (h : (g.exprTail d acc ts).plain = .ok (e, r)) :
    ∃ c, ts = c ++ r ∧ IsExprTail g.names acc c e := by
  rw [exprTail_plain] at h
  generalize hts : ts = us at h ⊢
  rcases us with _ | ⟨t, rest⟩
  · cases h
    exact ⟨[], rfl, .stop⟩
  · dsimp only at h
    split at h
    · next hop =>
      obtain ⟨⟨right, r₁⟩, h₁, h₂⟩ := bind_eq_ok.1 h
      dsimp only at h₂
      have hlen := Parsed.length_le h₁
      obtain ⟨c₁, hrest, hc₁⟩ := term_sound h₁
      obtain ⟨c₂, hr₁, hc₂⟩ := exprTail_sound h₂
      exact ⟨t :: (c₁ ++ c₂), by rw [hrest, hr₁]; simp, .more hop hc₁ hc₂⟩
    · cases h
      exact ⟨[], rfl, .stop⟩
termination_by ts.length * 5
decreasing_by
  all_goals (try subst_vars); (try simp only [List.length_cons, List.length_append]); omega

theorem term_sound {d : Nat} {ts r : List Token} {e : Expr}
    (h : (g.term d ts).plain = .ok (e, r)) : ∃ c, ts = c ++ r ∧ IsTerm g.names c e := by
  have hd := below_limit_of_ok h (term_deep · ts)
  rw [term_within g hd] at h
  obtain ⟨⟨first, r₁⟩, h₁, h₂⟩ := bind_eq_ok.1 h
  dsimp only at h₂
  have hlen := Parsed.length_le h₁
  obtain ⟨c₁, hts, hc₁⟩ := factor_sound h₁
  obtain ⟨c₂, hr₁, hc₂⟩ := termTail_sound h₂
  exact ⟨c₁ ++ c₂, by rw [hts, hr₁, List.append_assoc], .chain hc₁ hc₂⟩
termination_by ts.length * 5 + 2
decreasing_by all_goals (try subst_vars); (try simp only [List.length_append]); omega

theorem termTail_sound {d : Nat} {acc : Expr} {ts r : List Token} {e : Expr}
    (h : (g.termTail d acc ts).plain = .ok (e, r)) :
    ∃ c, ts = c ++ r ∧ IsTermTail g.names acc c e := by
  rw [termTail_plain] at h
  generalize hts : ts = us at h ⊢
  rcases us with _ | ⟨t, rest⟩
  · cases h
    exact ⟨[], rfl, .stop⟩
  · dsimp only at h
    split at h
    · next hop =>
      obtain ⟨⟨right, r₁⟩, h₁, h₂⟩ := bind_eq_ok.1 h
      dsimp only at h₂
      have hlen := Parsed.length_le h₁
      obtain ⟨c₁, hrest, hc₁⟩ := factor_sound h₁
      obtain ⟨c₂, hr₁, hc₂⟩ := termTail_sound h₂
      exact ⟨t :: (c₁ ++ c₂), by rw [hrest, hr₁]; simp, .more hop hc₁ hc₂⟩
    · cases h
      exact ⟨[], rfl, .stop⟩
termination_by ts.length * 5
decreasing_by
  all_goals (try subst_vars); (try simp only [List.length_cons, List.length_append]); omega

theorem factor_sound {d : Nat} {ts r : List Token} {e : Expr}
    (h : (g.factor d ts).plain = .ok (e, r)) : ∃ c, ts = c ++ r ∧ IsFactor g.names c e := by
  have hd := below_limit_of_ok h (factor_deep · ts)
  rw [factor_within g hd] at h
  obtain ⟨⟨base, r₁⟩, h₁, h₂⟩ := bind_eq_ok.1 h
  dsimp only at h₂
  have hlen := Parsed.length_le h₁
  obtain ⟨c₁, hts, hc₁⟩ := primary_sound h₁
  rcases r₁ with _ | ⟨t, rest⟩
  · cases h₂
    exact ⟨c₁, hts, .primary hc₁⟩
  · dsimp only at h₂
    split at h₂
    · next hop =>
      obtain ⟨⟨exponent, r₂⟩, h₃, h₄⟩ := map_eq_ok.1 h₂
      cases h₄
      obtain ⟨c₂, hrest, hc₂⟩ := factor_sound h₃
      refine ⟨c₁ ++ t :: c₂, ?_, .power hc₁ hop hc₂⟩
      rw [hts, hrest]
      simp
    · cases h₂
      exact ⟨c₁, hts, .primary hc₁⟩
termination_by ts.length * 5 + 1
decreasing_by
  all_goals (try subst_vars); (try simp only [List.length_cons, List.length_append] at *); omega

theorem primary_sound {d : Nat} {ts r : List Token} {e : Expr}
    (h : (g.primary d ts).plain = .ok (e, r)) : ∃ c, ts = c ++ r ∧ IsPrimary g.names c e := by
  have hd := below_limit_of_ok h (primary_deep · ts)
  rw [primary_plain, (depthCheck_eq_none g d).2 hd] at h
  dsimp only at h
  generalize hts : ts = us at h ⊢
  rcases us with _ | ⟨t, rest⟩
  · cases h
  · dsimp only at h
    split at h
    · next hk =>
      -- a sign: the primary after it, negated for `-`
      split at h
      · next hsign =>
        obtain ⟨⟨operand, r₁⟩, h₁, h₂⟩ := map_eq_ok.1 h
        cases h₂
        obtain ⟨c₁, hrest, hc₁⟩ := primary_sound h₁
        refine ⟨t :: c₁, by rw [hrest]; rfl, ?_⟩
        by_cases hneg : t.text = "-"
        · simpa [hneg] using IsPrimary.neg (Token.isOperator_of_kind hk hneg) hc₁
        · have hpos : t.text = "+" := by simpa [hneg] using hsign
          simpa [hneg] using IsPrimary.pos (Token.isOperator_of_kind hk hpos) hc₁
      · cases h
    · next v hk =>
      cases h
      exact ⟨[t], rfl, .num hk⟩
    · next hk =>
      split at h
      · next i hi =>
        cases h
        exact ⟨[t], rfl, .var hk hi⟩
      · cases h
    · next hk =>
      -- a call: a function name, an opening parenthesis and the arguments
      generalize hrest : rest = vs at h
      rcases vs with _ | ⟨p, afterOpen⟩
      · cases h
      · dsimp only at h
        split at h
        · next hp =>
          generalize hopen : afterOpen = ws at h
          rcases ws with _ | ⟨c, afterClose⟩
          · obtain ⟨cargs, args, hargs, hc, rfl⟩ := arguments_sound h
            refine ⟨t :: p :: cargs, by simp [← hargs], ?_⟩
            simpa using IsPrimary.call hk hp hc
          · dsimp only at h
            split at h
            · next hc =>
              cases h
              exact ⟨[t, p, c], rfl, .callEmpty hk hp hc⟩
            · obtain ⟨cargs, args, hargs, hc, rfl⟩ := arguments_sound h
              refine ⟨t :: p :: cargs, by rw [hargs]; rfl, ?_⟩
              simpa using IsPrimary.call hk hp hc
        · cases h
    · next hk =>
      -- a parenthesis: an expression and the closing parenthesis
      obtain ⟨⟨inner, r₁⟩, h₁, h₂⟩ := bind_eq_ok.1 h
      dsimp only at h₂
      have hlen := Parsed.length_le h₁
      obtain ⟨c₁, hrest, hc₁⟩ := expr_sound h₁
      rcases r₁ with _ | ⟨c, afterClose⟩
      · cases h₂
      · dsimp only at h₂
        split at h₂
        · next hc =>
          cases h₂
          refine ⟨t :: (c₁ ++ [c]), ?_, .paren hk hc₁ hc⟩
          rw [hrest]
          simp
        · cases h₂
    · cases h
    · cases h
termination_by ts.length * 5
decreasing_by all_goals (try subst_vars); (try simp only [List.length_cons]); omega

theorem arguments_sound {d : Nat} {name : String} {acc : List Expr} {ts r : List Token}
    {e : Expr} (h : (g.arguments name d acc ts).plain = .ok (e, r)) :
    ∃ c args, ts = c ++ r ∧ IsArgs g.names c args ∧ e = .call name (acc ++ args) := by
  rw [arguments_plain] at h
  obtain ⟨⟨arg, r₁⟩, h₁, h₂⟩ := bind_eq_ok.1 h
  dsimp only at h₂
  have hlen := Parsed.length_le h₁
  obtain ⟨c₁, hts, hc₁⟩ := expr_sound h₁
  rcases r₁ with _ | ⟨t, rest⟩
  · cases h₂
  · dsimp only at h₂
    split at h₂
    · next hc =>
      cases h₂
      exact ⟨c₁ ++ [t], [arg], by rw [hts]; simp, .last hc₁ hc, rfl⟩
    · next hc =>
      split at h₂
      · cases h₂
      · obtain ⟨c₂, args, hrest, hc₂, rfl⟩ := arguments_sound h₂
        refine ⟨c₁ ++ t :: c₂, arg :: args, ?_, .more hc₁ hc hc₂, by simp⟩
        rw [hts, hrest]
        simp
    · cases h₂
termination_by ts.length * 5 + 4
decreasing_by
  all_goals (try subst_vars); (try simp only [List.length_cons, List.length_append] at *); omega

end

/-! ### Locality: a production that succeeds has looked at one token past what it read

Every decision a production takes is made on a token it reads or on the first token it leaves
(a loop stops there, a factor looks there for `^`). So a successful reading of `c ++ r` stays
one of `c ++ r'` for every `r'` that starts as `r` does. -/

mutual

theorem expr_local {d : Nat} {ts c r r' : List Token} {e : Expr}
    (h : (g.expr d ts).plain = .ok (e, r)) (hts : ts = c ++ r) (hr : r'.head? = r.head?) :
    (g.expr d (c ++ r')).plain = .ok (e, r') := by
  have hd := below_limit_of_ok h (expr_deep · ts)
  rw [expr_within g hd] at h ⊢
  obtain ⟨⟨first, r₁⟩, h₁, h₂⟩ := bind_eq_ok.1 h
  dsimp only at h₂
  obtain ⟨c₂, rfl, -⟩ := exprTail_sound g h₂
  obtain ⟨c₁, hts₁, -⟩ := term_sound g h₁
  have hc : c = c₁ ++ c₂ := List.append_cancel_right (by rw [← hts, hts₁, List.append_assoc])
  rw [hc, List.append_assoc, term_local h₁ hts₁ (head?_append_congr hr), ok_bind]
  exact exprTail_local h₂ rfl hr
termination_by c.length * 5 + 3
decreasing_by all_goals (try subst_vars); (try simp only [List.length_append]); omega

theorem exprTail_local {d : Nat} {acc e : Expr} {ts c r r' : List Token}
    (h : (g.exprTail d acc ts).plain = .ok (e, r)) (hts : ts = c ++ r) (hr : r'.head? = r.head?) :
    (g.exprTail d acc (c ++ r')).plain = .ok (e, r') := by
  rw [hts] at h
  rcases hc : c with _ | ⟨t, c'⟩
  · -- nothing read: the loop stopped at the head of `r`, which `r'` shares
    rw [hc, List.nil_append] at h
    rw [List.nil_append]
    rcases r with _ | ⟨t, rest⟩
    · rw [exprTail_nil] at h
      cases h
      rw [List.head?_eq_none_iff.1 hr, exprTail_nil]
    · obtain ⟨rest', rfl⟩ := List.head?_eq_some_iff.1 (hr.trans List.head?_cons)
      cases hop : isOneOf t ["+", "-"]
      · rw [exprTail_stop g hop] at h ⊢
        cases h
        rfl
      · rw [exprTail_more g hop] at h
        obtain ⟨⟨right, r₁⟩, h₁, h₂⟩ := bind_eq_ok.1 h
        dsimp only at h₂
        have := Parsed.length_le h₁
        have := Parsed.length_le h₂
        simp only [List.length_cons] at *
        omega
  · rw [hc, List.cons_append] at h
    rw [List.cons_append]
    cases hop : isOneOf t ["+", "-"]
    · -- a loop that stops at once reads nothing
      rw [exprTail_stop g hop] at h
      have hr' := congrArg List.length (Prod.mk.inj (Except.ok.inj h)).2
      simp only [List.length_cons, List.length_append] at hr'
      omega
    · rw [exprTail_more g hop] at h ⊢
      obtain ⟨⟨right, r₁⟩, h₁, h₂⟩ := bind_eq_ok.1 h
      dsimp only at h₂
      obtain ⟨c₂, rfl, -⟩ := exprTail_sound g h₂
      obtain ⟨c₁, hts₁, -⟩ := term_sound g h₁
      have hc' : c' = c₁ ++ c₂ := List.append_cancel_right (by rw [hts₁, List.append_assoc])
      rw [hc', List.append_assoc, term_local h₁ hts₁ (head?_append_congr hr), ok_bind]
      exact exprTail_local h₂ rfl hr
termination_by c.length * 5
decreasing_by
  all_goals (try subst_vars); (try simp only [List.length_cons, List.length_append]); omega

theorem term_local {d : Nat} {ts c r r' : List Token} {e : Expr}
    (h : (g.term d ts).plain = .ok (e, r)) (hts : ts = c ++ r) (hr : r'.head? = r.head?) :
    (g.term d (c ++ r')).plain = .ok (e, r') := by
  have hd := below_limit_of_ok h (term_deep · ts)
  rw [term_within g hd] at h ⊢
  obtain ⟨⟨first, r₁⟩, h₁, h₂⟩ := bind_eq_ok.1 h
  dsimp only at h₂
  obtain ⟨c₂, rfl, -⟩ := termTail_sound g h₂
  obtain ⟨c₁, hts₁, -⟩ := factor_sound g h₁
  have hc : c = c₁ ++ c₂ := List.append_cancel_right (by rw [← hts, hts₁, List.append_assoc])
  rw [hc, List.append_assoc, factor_local h₁ hts₁ (head?_append_congr hr), ok_bind]
  exact termTail_local h₂ rfl hr
termination_by c.length * 5 + 2
decreasing_by all_goals (try subst_vars); (try simp only [List.length_append]); omega

theorem termTail_local {d : Nat} {acc e : Expr} {ts c r r' : List Token}
    (h : (g.termTail d acc ts).plain = .ok (e, r)) (hts : ts = c ++ r) (hr : r'.head? = r.head?) :
    (g.termTail d acc (c ++ r')).plain = .ok (e, r') := by
  rw [hts] at h
  rcases hc : c with _ | ⟨t, c'⟩
  · -- nothing read: the loop stopped at the head of `r`, which `r'` shares
    rw [hc, List.nil_append] at h
    rw [List.nil_append]
    rcases r with _ | ⟨t, rest⟩
    · rw [termTail_nil] at h
      cases h
      rw [List.head?_eq_none_iff.1 hr, termTail_nil]
    · obtain ⟨rest', rfl⟩ := List.head?_eq_some_iff.1 (hr.trans List.head?_cons)
      cases hop : isOneOf t ["*", "/"]
      · rw [termTail_stop g hop] at h ⊢
        cases h
        rfl
      · rw [termTail_more g hop] at h
        obtain ⟨⟨right, r₁⟩, h₁, h₂⟩ := bind_eq_ok.1 h
        dsimp only at h₂
        have := Parsed.length_le h₁
        have := Parsed.length_le h₂
        simp only [List.length_cons] at *
        omega
  · rw [hc, List.cons_append] at h
    rw [List.cons_append]
    cases hop : isOneOf t ["*", "/"]
    · -- a loop that stops at once reads nothing
      rw [termTail_stop g hop] at h
      have hr' := congrArg List.length (Prod.mk.inj (Except.ok.inj h)).2
      simp only [List.length_cons, List.length_append] at hr'
      omega
    · rw [termTail_more g hop] at h ⊢
      obtain ⟨⟨right, r₁⟩, h₁, h₂⟩ := bind_eq_ok.1 h
      dsimp only at h₂
      obtain ⟨c₂, rfl, -⟩ := termTail_sound g h₂
      obtain ⟨c₁, hts₁, -⟩ := factor_sound g h₁
      have hc' : c' = c₁ ++ c₂ := List.append_cancel_right (by rw [hts₁, List.append_assoc])
      rw [hc', List.append_assoc, factor_local h₁ hts₁ (head?_append_congr hr), ok_bind]
      exact termTail_local h₂ rfl hr
termination_by c.length * 5
decreasing_by
  all_goals (try subst_vars); (try simp only [List.length_cons, List.length_append]); omega

theorem factor_local {d : Nat} {ts c r r' : List Token} {e : Expr}
    (h : (g.factor d ts).plain = .ok (e, r)) (hts : ts = c ++ r) (hr : r'.head? = r.head?) :
    (g.factor d (c ++ r')).plain = .ok (e, r') := by
  have hd := below_limit_of_ok h (factor_deep · ts)
  rw [factor_within g hd] at h ⊢
  obtain ⟨⟨base, r₁⟩, h₁, h₂⟩ := bind_eq_ok.1 h
  dsimp only at h₂
  obtain ⟨c₁, hts₁, -⟩ := primary_sound g h₁
  rcases r₁ with _ | ⟨t, rest⟩
  · -- the primary read everything
    cases h₂
    rw [primary_local h₁ hts hr, ok_bind, List.head?_eq_none_iff.1 hr]
  · dsimp only at h₂
    split at h₂
    · next hop =>
      -- `^` and an exponent follow the primary
      obtain ⟨⟨exponent, r₂⟩, h₃, h₄⟩ := map_eq_ok.1 h₂
      cases h₄
      obtain ⟨c₂, hrest, -⟩ := factor_sound g h₃
      have hc : c = c₁ ++ t :: c₂ :=
        List.append_cancel_right (by rw [← hts, hts₁, hrest]; simp)
      rw [hc, List.append_assoc, List.cons_append,
        primary_local h₁ hts₁ (show (t :: (c₂ ++ r')).head? = _ from rfl), ok_bind]
      dsimp only
      rw [if_pos hop, factor_local h₃ hrest hr, map_ok]
    · -- the factor ends with its primary
      cases h₂
      obtain ⟨rest', rfl⟩ := List.head?_eq_some_iff.1 (hr.trans List.head?_cons)
      rw [primary_local h₁ hts hr, ok_bind]
      dsimp only
      rw [if_neg (by assumption)]
termination_by c.length * 5 + 1
decreasing_by
  all_goals (try subst_vars); (try simp only [List.length_cons, List.length_append]); omega

theorem primary_local {d : Nat} {ts c r r' : List Token} {e : Expr}
    (h : (g.primary d ts).plain = .ok (e, r)) (hts : ts = c ++ r) (hr : r'.head? = r.head?) :
    (g.primary d (c ++ r')).plain = .ok (e, r') := by
  obtain ⟨c₀, hts₀, hprim⟩ := primary_sound g h
  have hc₀ : c = c₀ := List.append_cancel_right (hts.symm.trans hts₀)
  obtain ⟨t, c', hc⟩ := List.exists_cons_of_ne_nil (hc₀ ▸ hprim.ne_nil)
  have hd := below_limit_of_ok h (primary_deep · ts)
  rw [primary_plain, (depthCheck_eq_none g d).2 hd, hts, hc, List.cons_append] at h
  rw [hc, List.cons_append]
  dsimp only at h
  split at h
  · next hk =>
    split at h
    · next hsign =>
      obtain ⟨⟨operand, r₁⟩, h₁, h₂⟩ := map_eq_ok.1 h
      cases h₂
      rw [primary_sign g hd hk hsign, primary_local h₁ rfl hr, map_ok]
    · cases h
  · next v hk =>
    obtain ⟨rfl, hcr⟩ := Prod.mk.inj (Except.ok.inj h)
    obtain rfl := List.append_left_eq_self.1 hcr
    exact primary_number g hd hk
  · next hk =>
    split at h
    · next i hi =>
      obtain ⟨rfl, hcr⟩ := Prod.mk.inj (Except.ok.inj h)
      obtain rfl := List.append_left_eq_self.1 hcr
      exact primary_variable g hd hk hi
    · cases h
  · next hk =>
    -- a call: a function name, an opening parenthesis and the arguments
    generalize hrest : c' ++ r = vs at h
    rcases vs with _ | ⟨p, afterOpen⟩
    · cases h
    · dsimp only at h
      split at h
      · next hp =>
        rcases afterOpen with _ | ⟨c'', afterClose⟩
        · obtain ⟨cargs, args, hargs, hcargs, -⟩ := arguments_sound g h
          exact absurd (List.append_eq_nil_iff.1 hargs.symm).1 hcargs.ne_nil
        · dsimp only at h
          split at h
          · next hclose =>
            obtain ⟨rfl, rfl⟩ := Prod.mk.inj (Except.ok.inj h)
            have hc' : c' = [p, c''] := List.append_cancel_right (by rw [hrest]; rfl)
            rw [hc']
            exact primary_callEmpty g hd hk hp hclose
          · next hclose =>
            obtain ⟨cargs, args, hargs, hcargs, -⟩ := arguments_sound g h
            have hc' : c' = p :: cargs :=
              List.append_cancel_right (by rw [hrest, hargs]; rfl)
            obtain ⟨u, cargs', rfl⟩ := List.exists_cons_of_ne_nil hcargs.ne_nil
            obtain ⟨rfl, -⟩ := List.cons.inj hargs
            rw [hc', List.cons_append, primary_call g hd hk hp (by simpa using hclose)]
            exact arguments_local h hargs hr
      · cases h
  · next hk =>
    -- a parenthesis: an expression and the closing parenthesis
    obtain ⟨⟨inner, r₁⟩, h₁, h₂⟩ := bind_eq_ok.1 h
    dsimp only at h₂
    obtain ⟨c₁, hts₁, -⟩ := expr_sound g h₁
    rcases r₁ with _ | ⟨c'', afterClose⟩
    · cases h₂
    · dsimp only at h₂
      split at h₂
      · next hclose =>
        obtain ⟨rfl, rfl⟩ := Prod.mk.inj (Except.ok.inj h₂)
        have hc' : c' = c₁ ++ [c''] := List.append_cancel_right (by rw [hts₁]; simp)
        rw [hc', primary_paren g hd hk, List.append_assoc, List.singleton_append,
          expr_local h₁ hts₁ (show (c'' :: r').head? = _ from rfl), ok_bind]
        dsimp only
        rw [hclose]
      · cases h₂
  · cases h
  · cases h
termination_by c.length * 5
decreasing_by
  all_goals (try subst_vars); (try simp only [List.length_cons, List.length_append]); omega

theorem arguments_local {d : Nat} {name : String} {acc : List Expr} {ts c r r' : List Token}
    {e : Expr} (h : (g.arguments name d acc ts).plain = .ok (e, r)) (hts : ts = c ++ r)
    (hr : r'.head? = r.head?) : (g.arguments name d acc (c ++ r')).plain = .ok (e, r') := by
  rw [arguments_plain] at h ⊢
  obtain ⟨⟨arg, r₁⟩, h₁, h₂⟩ := bind_eq_ok.1 h
  dsimp only at h₂
  obtain ⟨c₁, hts₁, -⟩ := expr_sound g h₁
  rcases r₁ with _ | ⟨t, rest⟩
  · cases h₂
  · dsimp only at h₂
    split at h₂
    · next hk =>
      -- a closing parenthesis ends the call
      obtain ⟨rfl, rfl⟩ := Prod.mk.inj (Except.ok.inj h₂)
      have hc : c = c₁ ++ [t] := List.append_cancel_right (by rw [← hts, hts₁]; simp)
      rw [hc, List.append_assoc, List.singleton_append,
        expr_local h₁ hts₁ (show (t :: r').head? = _ from rfl), ok_bind]
      dsimp only
      rw [hk]
    · next hk =>
      -- a comma: another argument follows
      split at h₂
      · cases h₂
      · next hstart =>
        obtain ⟨c₂, _, hrest, -, -⟩ := arguments_sound g h₂
        have hc : c = c₁ ++ t :: c₂ :=
          List.append_cancel_right (by rw [← hts, hts₁, hrest]; simp)
        rw [hc, List.append_assoc, List.cons_append,
          expr_local h₁ hts₁ (show (t :: (c₂ ++ r')).head? = _ from rfl), ok_bind]
        dsimp only
        simp only [hk]
        rw [startsWith_congr (head?_append_congr hr), ← hrest, if_neg hstart]
        exact arguments_local h₂ hrest hr
    · cases h₂
termination_by c.length * 5 + 4
decreasing_by
  all_goals (try subst_vars); (try simp only [List.length_cons, List.length_append]); omega

end

end Grammar

end ScalarDiff.Source
