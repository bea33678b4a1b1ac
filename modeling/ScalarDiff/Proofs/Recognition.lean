import ScalarDiff.Proofs.Completeness

/-!
# The reader accepts exactly the sentences

For the tokens of a text and names that declare its variables, the reader returns a tree exactly
when the tokens before the end token form a sentence, and the tree is then the one the sentence
denotes; otherwise it refuses, unless nesting runs out first, at the first token where the
tokens so far stop being the start of a sentence followed by the end token.

The refusal is placed by `FailsAt`: a production that refuses does so at a token `t` of its
input `pre ++ t :: post`, where `pre` still starts a phrase of its kind, and it refuses with the
same error whatever follows `t`, since every decision before `t` was taken on `pre` and `t`
alone. Completeness then rules out that `pre ++ [t]` starts a sentence: that sentence would be
read.

This needs the input to be as the tokenizer leaves it: it holds an end token, which no phrase
contains, so a production always has a token to look at (`Closed`); and every variable is
declared, so the only refusals left are syntactic or for nesting.
-/

namespace ScalarDiff.Source

open ScalarDiff

/-- Some token of the list is the end token. -/
def Closed (ts : List Token) : Prop := ∃ t ∈ ts, t.isFinish = true

namespace Closed

theorem not_nil : ¬ Closed [] := by
  rintro ⟨t, ht, -⟩
  cases ht

/-- What is left after a phrase still holds the end token. -/
theorem right {ts c r : List Token} (h : Closed ts) (hts : ts = c ++ r) (hc : Unended c) :
    Closed r := by
  obtain ⟨t, ht, hfin⟩ := h
  rw [hts] at ht
  rcases List.mem_append.1 ht with ht | ht
  · rw [hc t ht] at hfin
    cases hfin
  · exact ⟨t, ht, hfin⟩

theorem tail {t : Token} {r : List Token} (h : Closed (t :: r)) (ht : t.isFinish = false) :
    Closed r :=
  h.right (show t :: r = [t] ++ r from rfl) (Unended.nil.cons ht)

end Closed

namespace Declared

variable {names : List String}

theorem right {ts c r : List Token} (h : Declared names ts) (hts : ts = c ++ r) :
    Declared names r := by
  intro t ht
  rw [hts] at h
  exact h t (List.mem_append_right c ht)

theorem tail {t : Token} {r : List Token} (h : Declared names (t :: r)) : Declared names r :=
  h.right (show t :: r = [t] ++ r from rfl)

end Declared

/-- A token of the given class, to complete phrases with. -/
def Token.ofKind (k : TokenKind) : Token := ⟨k, "", 0, 0⟩

theorem isPrimary_number (names : List String) :
    IsPrimary names [Token.ofKind (.number 0)] (.num 0) :=
  .num rfl

theorem isExpr_number (names : List String) :
    IsExpr names [Token.ofKind (.number 0)] (.num 0) := by
  simpa using IsExpr.chain (IsTerm.chain (.primary (isPrimary_number names)) .stop) .stop

/-- A sign may stand before any primary. -/
theorem IsPrimary.sign {names : List String} {t : Token} {ts : List Token} {e : Expr}
    (hk : t.kind = .operator) (hs : (t.text == "-" || t.text == "+") = true)
    (h : IsPrimary names ts e) : ∃ e', IsPrimary names (t :: ts) e' := by
  by_cases hneg : t.text = "-"
  · exact ⟨_, .neg (Token.isOperator_of_kind hk hneg) h⟩
  · have hpos : t.text = "+" := by simpa [hneg] using hs
    exact ⟨_, .pos (Token.isOperator_of_kind hk hpos) h⟩

/-- `P` refuses `ts` with `err` at one of its tokens `t`, `ts = pre ++ t :: post`: for a
syntactic cause, at a point where the tokens `pre` before it still start a phrase of the kind
`R`, and with the same error whatever follows `t`. -/
def FailsAt {α : Type} (P : List Token → Except ParseError α) (R : List Token → Prop)
    (ts : List Token) (err : ParseError) : Prop :=
  ∃ pre t post, ts = pre ++ t :: post ∧ err = .atToken err.problem t ∧
    err.problem.kind = .syntactic ∧ (∃ c, R (pre ++ c)) ∧
    ∀ post', P (pre ++ t :: post') = .error err

namespace FailsAt

variable {α β : Type} {P : List Token → Except ParseError α} {Q : List Token → Except ParseError β}
  {R S : List Token → Prop} {ts : List Token} {err : ParseError}

/-- A refusal at the token a production is looking at. -/
theorem here {pre post : List Token} {t : Token} {p : Problem} (hts : ts = pre ++ t :: post)
    (hp : p.kind = .syntactic) (hR : ∃ c, R (pre ++ c))
    (hP : ∀ post', P (pre ++ t :: post') = .error (.atToken p t)) :
    FailsAt P R ts (.atToken p t) :=
  ⟨pre, t, post, hts, rfl, hp, hR, hP⟩

/-- A refusal of a production that `Q` calls first, on its whole input. -/
theorem lift (h : FailsAt P R ts err) (hR : ∀ s, R s → ∃ c, S (s ++ c))
    (hQ : ∀ s, s.head? = ts.head? → P s = .error err → Q s = .error err) :
    FailsAt Q S ts err := by
  obtain ⟨pre, t, post, rfl, hat, hkind, ⟨c, hc⟩, hall⟩ := h
  obtain ⟨c', hc'⟩ := hR _ hc
  exact ⟨pre, t, post, rfl, hat, hkind, ⟨c ++ c', by simpa using hc'⟩,
    fun post' => hQ _ (head?_append_congr rfl) (hall post')⟩

/-- A refusal of a production that `Q` calls after reading `pre₀`: `Q` reads `pre₀` the same way
whatever follows, as long as it starts as `ts` does. -/
theorem extend (pre₀ : List Token) (h : FailsAt P R ts err)
    (hR : ∀ s, R s → ∃ c, S (pre₀ ++ s ++ c))
    (hQ : ∀ s, s.head? = ts.head? → P s = .error err → Q (pre₀ ++ s) = .error err) :
    FailsAt Q S (pre₀ ++ ts) err := by
  obtain ⟨pre, t, post, rfl, hat, hkind, ⟨c, hc⟩, hall⟩ := h
  obtain ⟨c', hc'⟩ := hR _ hc
  refine ⟨pre₀ ++ pre, t, post, by simp, hat, hkind, ⟨c ++ c', by simpa using hc'⟩,
    fun post' => ?_⟩
  rw [List.append_assoc]
  exact hQ _ (head?_append_congr rfl) (hall post')

end FailsAt

namespace Grammar

variable (g : Grammar)

/-- A primary refused at its first token, for a cause that does not look further. -/
theorem primary_fails_here {d : Nat} {t : Token} {rest : List Token} {p : Problem}
    (hp : p.kind = .syntactic)
    (hP : ∀ post', (g.primary d (t :: post')).plain = .error (.atToken p t)) :
    FailsAt (fun us => (g.primary d us).plain) (fun s => ∃ e, IsPrimary g.names s e)
      (t :: rest) (.atToken p t) :=
  FailsAt.here (show t :: rest = [] ++ t :: rest from rfl) hp ⟨_, _, isPrimary_number _⟩ hP

mutual

theorem expr_fails {d : Nat} {ts : List Token} {err : ParseError}
    (h : (g.expr d ts).plain = .error err) (hdecl : Declared g.names ts) (hclosed : Closed ts)
    (hk : err.problem.kind ≠ .resource) :
    FailsAt (fun us => (g.expr d us).plain) (fun s => ∃ e, IsExpr g.names s e) ts err := by
  have hd := below_limit h hk (expr_deep · ts)
  rw [expr_within g hd] at h
  rcases hterm : (g.term (d + 1) ts).plain with err₁ | ⟨first, r₁⟩
  · -- the first term fails
    rw [hterm, error_bind] at h
    cases h
    refine (term_fails hterm hdecl hclosed hk).lift
      (fun s ⟨e, hs⟩ => ⟨[], e, by simpa using IsExpr.chain hs .stop⟩) fun s _ hfail => ?_
    rw [expr_within g hd, hfail, error_bind]
  · -- the chain after it fails
    rw [hterm, ok_bind] at h
    dsimp only at h
    have hlen := Parsed.length_le hterm
    obtain ⟨c₁, hts, hc₁⟩ := term_sound g hterm
    rw [hts]
    refine (exprTail_fails h (hdecl.right hts) (hclosed.right hts hc₁.unended) hk).extend c₁
      (fun s ⟨e, hs⟩ => ⟨[], e, by simpa using IsExpr.chain hc₁ hs⟩) fun s hs hfail => ?_
    rw [expr_within g hd, term_local g hterm hts hs, ok_bind]
    exact hfail
termination_by ts.length * 5 + 3
decreasing_by all_goals (try subst_vars); omega

theorem exprTail_fails {d : Nat} {acc : Expr} {ts : List Token} {err : ParseError}
    (h : (g.exprTail d acc ts).plain = .error err) (hdecl : Declared g.names ts)
    (hclosed : Closed ts) (hk : err.problem.kind ≠ .resource) :
    FailsAt (fun us => (g.exprTail d acc us).plain) (fun s => ∃ e, IsExprTail g.names acc s e)
      ts err := by
  generalize hus : ts = us at h hdecl hclosed ⊢
  rcases us with _ | ⟨t, rest⟩
  · rw [exprTail_nil] at h
    cases h
  cases hop : isOneOf t ["+", "-"]
  · rw [exprTail_stop g hop] at h
    cases h
  rw [exprTail_more g hop] at h
  have ht : t.isFinish = false := Token.isFinish_of_isOneOf hop
  rcases hterm : (g.term (d + 1) rest).plain with err₁ | ⟨right, r₁⟩
  · -- the term after the operator fails
    rw [hterm, error_bind] at h
    cases h
    refine (term_fails hterm hdecl.tail (hclosed.tail ht) hk).extend [t]
      (fun s ⟨e, hs⟩ => ⟨[], _, by simpa using IsExprTail.more hop hs .stop⟩)
      fun s _ hfail => ?_
    rw [List.singleton_append, exprTail_more g hop, hfail, error_bind]
  · -- the chain after that term fails
    rw [hterm, ok_bind] at h
    dsimp only at h
    have hlen := Parsed.length_le hterm
    obtain ⟨c₁, hrest, hc₁⟩ := term_sound g hterm
    rw [hrest, ← List.cons_append]
    refine (exprTail_fails h (hdecl.tail.right hrest) ((hclosed.tail ht).right hrest hc₁.unended)
      hk).extend (t :: c₁) (fun s ⟨e, hs⟩ => ⟨[], e, by simpa using IsExprTail.more hop hc₁ hs⟩)
      fun s hs hfail => ?_
    rw [List.cons_append, exprTail_more g hop, term_local g hterm hrest hs, ok_bind]
    exact hfail
termination_by ts.length * 5
decreasing_by all_goals (try subst_vars); (try simp only [List.length_cons] at *); omega

theorem term_fails {d : Nat} {ts : List Token} {err : ParseError}
    (h : (g.term d ts).plain = .error err) (hdecl : Declared g.names ts) (hclosed : Closed ts)
    (hk : err.problem.kind ≠ .resource) :
    FailsAt (fun us => (g.term d us).plain) (fun s => ∃ e, IsTerm g.names s e) ts err := by
  have hd := below_limit h hk (term_deep · ts)
  rw [term_within g hd] at h
  rcases hfactor : (g.factor (d + 1) ts).plain with err₁ | ⟨first, r₁⟩
  · -- the first factor fails
    rw [hfactor, error_bind] at h
    cases h
    refine (factor_fails hfactor hdecl hclosed hk).lift
      (fun s ⟨e, hs⟩ => ⟨[], e, by simpa using IsTerm.chain hs .stop⟩) fun s _ hfail => ?_
    rw [term_within g hd, hfail, error_bind]
  · -- the chain after it fails
    rw [hfactor, ok_bind] at h
    dsimp only at h
    have hlen := Parsed.length_le hfactor
    obtain ⟨c₁, hts, hc₁⟩ := factor_sound g hfactor
    rw [hts]
    refine (termTail_fails h (hdecl.right hts) (hclosed.right hts hc₁.unended) hk).extend c₁
      (fun s ⟨e, hs⟩ => ⟨[], e, by simpa using IsTerm.chain hc₁ hs⟩) fun s hs hfail => ?_
    rw [term_within g hd, factor_local g hfactor hts hs, ok_bind]
    exact hfail
termination_by ts.length * 5 + 2
decreasing_by all_goals (try subst_vars); omega

theorem termTail_fails {d : Nat} {acc : Expr} {ts : List Token} {err : ParseError}
    (h : (g.termTail d acc ts).plain = .error err) (hdecl : Declared g.names ts)
    (hclosed : Closed ts) (hk : err.problem.kind ≠ .resource) :
    FailsAt (fun us => (g.termTail d acc us).plain) (fun s => ∃ e, IsTermTail g.names acc s e)
      ts err := by
  generalize hus : ts = us at h hdecl hclosed ⊢
  rcases us with _ | ⟨t, rest⟩
  · rw [termTail_nil] at h
    cases h
  cases hop : isOneOf t ["*", "/"]
  · rw [termTail_stop g hop] at h
    cases h
  rw [termTail_more g hop] at h
  have ht : t.isFinish = false := Token.isFinish_of_isOneOf hop
  rcases hfactor : (g.factor (d + 1) rest).plain with err₁ | ⟨right, r₁⟩
  · -- the factor after the operator fails
    rw [hfactor, error_bind] at h
    cases h
    refine (factor_fails hfactor hdecl.tail (hclosed.tail ht) hk).extend [t]
      (fun s ⟨e, hs⟩ => ⟨[], _, by simpa using IsTermTail.more hop hs .stop⟩)
      fun s _ hfail => ?_
    rw [List.singleton_append, termTail_more g hop, hfail, error_bind]
  · -- the chain after that factor fails
    rw [hfactor, ok_bind] at h
    dsimp only at h
    have hlen := Parsed.length_le hfactor
    obtain ⟨c₁, hrest, hc₁⟩ := factor_sound g hfactor
    rw [hrest, ← List.cons_append]
    refine (termTail_fails h (hdecl.tail.right hrest) ((hclosed.tail ht).right hrest hc₁.unended)
      hk).extend (t :: c₁) (fun s ⟨e, hs⟩ => ⟨[], e, by simpa using IsTermTail.more hop hc₁ hs⟩)
      fun s hs hfail => ?_
    rw [List.cons_append, termTail_more g hop, factor_local g hfactor hrest hs, ok_bind]
    exact hfail
termination_by ts.length * 5
decreasing_by all_goals (try subst_vars); (try simp only [List.length_cons] at *); omega

theorem factor_fails {d : Nat} {ts : List Token} {err : ParseError}
    (h : (g.factor d ts).plain = .error err) (hdecl : Declared g.names ts) (hclosed : Closed ts)
    (hk : err.problem.kind ≠ .resource) :
    FailsAt (fun us => (g.factor d us).plain) (fun s => ∃ e, IsFactor g.names s e) ts err := by
  have hd := below_limit h hk (factor_deep · ts)
  rw [factor_within g hd] at h
  rcases hprimary : (g.primary (d + 1) ts).plain with err₁ | ⟨base, r₁⟩
  · -- the primary fails
    rw [hprimary, error_bind] at h
    cases h
    refine (primary_fails hprimary hdecl hclosed hk).lift
      (fun s ⟨e, hs⟩ => ⟨[], e, by simpa using IsFactor.primary hs⟩) fun s _ hfail => ?_
    rw [factor_within g hd, hfail, error_bind]
  · -- the exponent after `^` fails
    rw [hprimary, ok_bind] at h
    dsimp only at h
    have hlen := Parsed.length_le hprimary
    obtain ⟨c₁, hts, hc₁⟩ := primary_sound g hprimary
    rcases r₁ with _ | ⟨t, rest⟩
    · cases h
    dsimp only at h
    split at h
    · next hop =>
      have ht : t.isFinish = false := Token.isFinish_of_isOperator hop
      rw [hts, show c₁ ++ t :: rest = (c₁ ++ [t]) ++ rest by simp]
      refine (factor_fails (map_eq_error.1 h) (hdecl.right hts).tail
        ((hclosed.right hts hc₁.unended).tail ht) hk).extend (c₁ ++ [t])
        (fun s ⟨e, hs⟩ => ⟨[], _, by simpa using IsFactor.power hc₁ hop hs⟩)
        fun s _ hfail => ?_
      rw [List.append_assoc, List.singleton_append, factor_within g hd,
        primary_local g hprimary hts (show (t :: s).head? = _ from rfl), ok_bind]
      dsimp only
      rw [if_pos hop, hfail, map_error]
    · cases h
termination_by ts.length * 5 + 1
decreasing_by all_goals (try subst_vars); (try simp only [List.length_cons] at *); omega

theorem primary_fails {d : Nat} {ts : List Token} {err : ParseError}
    (h : (g.primary d ts).plain = .error err) (hdecl : Declared g.names ts) (hclosed : Closed ts)
    (hk : err.problem.kind ≠ .resource) :
    FailsAt (fun us => (g.primary d us).plain) (fun s => ∃ e, IsPrimary g.names s e) ts err := by
  have hd := below_limit h hk (primary_deep · ts)
  generalize hus : ts = us at h hdecl hclosed ⊢
  rcases us with _ | ⟨t, rest⟩
  · exact absurd hclosed Closed.not_nil
  rw [primary_plain, (depthCheck_eq_none g d).2 hd] at h
  dsimp only at h
  cases hkind : t.kind
  case operator =>
    simp only [hkind] at h
    split at h
    · next hsign =>
      -- the primary after a sign fails
      refine (primary_fails (map_eq_error.1 h) hdecl.tail
        (hclosed.tail (Token.isFinish_of_kind hkind (by simp))) hk).extend [t]
        (fun s ⟨e, hs⟩ => ?_) fun s _ hfail => ?_
      · obtain ⟨e', he'⟩ := IsPrimary.sign hkind hsign hs
        exact ⟨[], e', by simpa using he'⟩
      · rw [List.singleton_append, primary_sign g hd hkind hsign, hfail, map_error]
    · next hsign =>
      -- an operator that is no sign starts no primary
      cases h
      refine g.primary_fails_here rfl fun post' => ?_
      rw [primary_plain, (depthCheck_eq_none g d).2 hd]
      simp [hkind, hsign]
  case number v =>
    simp only [hkind] at h
    cases h
  case «variable» =>
    -- a declared name is always found
    obtain ⟨i, hi⟩ := lastIndex_of_mem (hdecl t (by simp) hkind)
    simp only [hkind, hi] at h
    cases h
  case function =>
    simp only [hkind] at h
    have ht : t.isFinish = false := Token.isFinish_of_kind hkind (by simp)
    rcases rest with _ | ⟨p, afterOpen⟩
    · exact absurd (hclosed.tail ht) Closed.not_nil
    dsimp only at h
    split at h
    · next hp =>
      rcases afterOpen with _ | ⟨c, afterClose⟩
      · exact absurd ((hclosed.tail ht).tail (Token.isFinish_of_kind hp (by simp))) Closed.not_nil
      dsimp only at h
      split at h
      · cases h
      · next hc =>
        -- the arguments fail
        have hlen : (c :: afterClose).length < ts.length := by
          rw [hus]
          simp
        refine (arguments_fails h hdecl.tail.tail
          ((hclosed.tail ht).tail (Token.isFinish_of_kind hp (by simp))) hk).extend [t, p]
          (fun s ⟨args, hs⟩ => ⟨[], _, by simpa using IsPrimary.call hkind hp hs⟩)
          fun s hs hfail => ?_
        rw [show [t, p] ++ s = t :: p :: s from rfl, primary_call g hd hkind hp]
        · exact hfail
        · rw [hs]
          simpa using hc
    · next hp =>
      -- no opening parenthesis after the function name
      cases h
      refine FailsAt.here (show t :: p :: afterOpen = [t] ++ p :: afterOpen from rfl) rfl
        ⟨[Token.ofKind .openParen, Token.ofKind .closeParen], _, .callEmpty hkind rfl rfl⟩
        fun post' => ?_
      rw [List.singleton_append, primary_plain, (depthCheck_eq_none g d).2 hd]
      simp only [hkind]
  case openParen =>
    simp only [hkind] at h
    have ht : t.isFinish = false := Token.isFinish_of_kind hkind (by simp)
    rcases hexpr : (g.expr (d + 1) rest).plain with err₁ | ⟨inner, r₁⟩
    · -- the expression inside fails
      rw [hexpr, error_bind] at h
      cases h
      refine (expr_fails hexpr hdecl.tail (hclosed.tail ht) hk).extend [t]
        (fun s ⟨e, hs⟩ =>
          ⟨[Token.ofKind .closeParen], _, by simpa using IsPrimary.paren hkind hs rfl⟩)
        fun s _ hfail => ?_
      rw [List.singleton_append, primary_paren g hd hkind, hfail, error_bind]
    rw [hexpr, ok_bind] at h
    dsimp only at h
    obtain ⟨c₁, hrest, hc₁⟩ := expr_sound g hexpr
    rcases r₁ with _ | ⟨c, afterClose⟩
    · exact absurd ((hclosed.tail ht).right hrest hc₁.unended) Closed.not_nil
    dsimp only at h
    split at h
    · cases h
    · next hc =>
      -- the expression inside is followed by no closing parenthesis
      cases h
      refine FailsAt.here (show t :: rest = (t :: c₁) ++ c :: afterClose by rw [hrest]; rfl) rfl
        ⟨[Token.ofKind .closeParen], _, by simpa using IsPrimary.paren hkind hc₁ rfl⟩
        fun post' => ?_
      rw [List.cons_append, primary_paren g hd hkind,
        expr_local g hexpr hrest (show (c :: post').head? = _ from rfl), ok_bind]
      dsimp only
      split
      · next hc' => exact absurd hc' hc
      · rfl
  all_goals
    -- the end token, a closing parenthesis or a comma starts no primary
    simp only [hkind] at h
    cases h
    refine g.primary_fails_here rfl fun post' => ?_
    rw [primary_plain, (depthCheck_eq_none g d).2 hd]
    simp [hkind]
termination_by ts.length * 5
decreasing_by all_goals (try subst_vars); (try simp only [List.length_cons] at *); omega

theorem arguments_fails {d : Nat} {name : String} {acc : List Expr} {ts : List Token}
    {err : ParseError} (h : (g.arguments name d acc ts).plain = .error err)
    (hdecl : Declared g.names ts) (hclosed : Closed ts) (hk : err.problem.kind ≠ .resource) :
    FailsAt (fun us => (g.arguments name d acc us).plain)
      (fun s => ∃ args, IsArgs g.names s args) ts err := by
  rw [arguments_plain] at h
  rcases hexpr : (g.expr (d + 1) ts).plain with err₁ | ⟨arg, r₁⟩
  · -- the argument fails
    rw [hexpr, error_bind] at h
    cases h
    refine (expr_fails hexpr hdecl hclosed hk).lift
      (fun s ⟨e, hs⟩ => ⟨[Token.ofKind .closeParen], _, .last hs rfl⟩) fun s _ hfail => ?_
    rw [arguments_plain, hfail, error_bind]
  rw [hexpr, ok_bind] at h
  dsimp only at h
  have hlen := Parsed.length_le hexpr
  obtain ⟨c₁, hts, hc₁⟩ := expr_sound g hexpr
  rcases r₁ with _ | ⟨t, rest⟩
  · exact absurd (hclosed.right hts hc₁.unended) Closed.not_nil
  dsimp only at h
  have hclosed' := hclosed.right hts hc₁.unended
  cases hkind : t.kind
  case closeParen =>
    simp only [hkind] at h
    cases h
  case comma =>
    simp only [hkind] at h
    have ht : t.isFinish = false := Token.isFinish_of_kind hkind (by simp)
    split at h
    · next hs =>
      -- a comma followed by `,` or `)`: no argument after it
      cases h
      rcases rest with _ | ⟨u, post⟩
      · exact absurd (hclosed'.tail ht) Closed.not_nil
      show FailsAt _ _ _ (.atToken (.missingArgument name) u)
      refine FailsAt.here (show ts = (c₁ ++ [t]) ++ u :: post by rw [hts]; simp) rfl
        ⟨[Token.ofKind (.number 0), Token.ofKind .closeParen], _,
          by simpa using IsArgs.more hc₁ hkind (.last (isExpr_number _) rfl)⟩ fun post' => ?_
      rw [List.append_assoc, List.singleton_append, arguments_plain,
        expr_local g hexpr hts (show (t :: u :: post').head? = _ from rfl), ok_bind]
      dsimp only
      simp only [hkind]
      rw [if_pos (by rwa [startsWith_congr (show (u :: post').head? = (u :: post).head? from rfl)])]
      rfl
    · next hs =>
      -- the arguments after the comma fail
      rw [hts, show c₁ ++ t :: rest = (c₁ ++ [t]) ++ rest by simp]
      refine (arguments_fails h (hdecl.right hts).tail (hclosed'.tail ht) hk).extend (c₁ ++ [t])
        (fun s ⟨args, hs'⟩ => ⟨[], _, by simpa using IsArgs.more hc₁ hkind hs'⟩)
        fun s hs' hfail => ?_
      rw [List.append_assoc, List.singleton_append, arguments_plain,
        expr_local g hexpr hts (show (t :: s).head? = _ from rfl), ok_bind]
      dsimp only
      simp only [hkind]
      rw [if_neg (by rwa [startsWith_congr hs'])]
      exact hfail
  all_goals
    -- neither `,` nor `)` after an argument
    simp only [hkind] at h
    cases h
    refine FailsAt.here hts rfl ⟨[Token.ofKind .closeParen], _, .last hc₁ rfl⟩ fun post' => ?_
    rw [arguments_plain, expr_local g hexpr hts (show (t :: post').head? = _ from rfl), ok_bind]
    simp only [hkind]
termination_by ts.length * 5 + 4
decreasing_by all_goals (try subst_vars); (try simp only [List.length_cons] at *); omega

end


theorem whole_plain (ts : List Token) :
    g.whole ts = (g.expr 0 ts).plain >>= fun x =>
      if (g.peek x.2).isFinish then .ok x.1
      else .error (.atToken .trailingTokens (g.peek x.2)) := by
  rw [Grammar.whole]
  cases g.expr 0 ts with
  | error e => rfl
  | ok x =>
    obtain ⟨e, r, hr⟩ := x
    rfl

/-- The whole reading refuses where its expression does, or at the first token after a complete
expression when that is not the end token. -/
theorem whole_fails {ts : List Token} {err : ParseError} (h : g.whole ts = .error err)
    (hdecl : Declared g.names ts) (hclosed : Closed ts) (hk : err.problem.kind ≠ .resource) :
    FailsAt g.whole (fun s => ∃ e, IsExpr g.names s e) ts err := by
  rw [whole_plain] at h
  rcases hexpr : (g.expr 0 ts).plain with err₁ | ⟨e, r⟩
  · rw [hexpr, error_bind] at h
    cases h
    refine (expr_fails g hexpr hdecl hclosed hk).lift (fun s hs => ⟨[], by simpa using hs⟩)
      fun s _ hfail => ?_
    rw [whole_plain, hfail, error_bind]
  rw [hexpr, ok_bind] at h
  obtain ⟨c, hts, hc⟩ := expr_sound g hexpr
  rcases r with _ | ⟨t, post⟩
  · exact absurd (hclosed.right hts hc.unended) Closed.not_nil
  -- a complete expression followed by a token that is not the end token
  have ht : t.isFinish = false := by
    cases hfin : t.isFinish
    · rfl
    · simp [Grammar.peek, hfin] at h
  simp only [Grammar.peek, List.headD_cons, ht, Bool.false_eq_true] at h
  cases h
  refine FailsAt.here hts rfl ⟨[], e, by simpa using hc⟩ fun post' => ?_
  rw [whole_plain, expr_local g hexpr hts (show (t :: post').head? = _ from rfl), ok_bind]
  simp [Grammar.peek, ht]

/-- A sentence followed by an end token is read as its tree, unless nesting runs out. -/
theorem whole_sentence {s : List Token} {e : Expr} {fin : Token} (hs : IsExpr g.names s e)
    (hfin : fin.kind = .finish) : Yields (g.whole (s ++ [fin])) e := by
  rw [whole_plain]
  refine (expr_complete g hs 0 (Stops.of_kind (by simp [hfin]))).bind (.inl ?_)
  simp [Grammar.peek, Token.isFinish, hfin]

/-- What the whole reading accepts before the end token is a sentence. -/
theorem sentence_of_whole {body : List Token} {n : Nat} {e : Expr} (hbody : Unended body)
    (h : g.whole (body ++ [Token.finish n]) = .ok e) : IsExpr g.names body e := by
  rw [whole_plain] at h
  obtain ⟨⟨e', r⟩, hexpr, hend⟩ := bind_eq_ok.1 h
  obtain ⟨c, hts, hc⟩ := expr_sound g hexpr
  have hfin : (g.peek r).isFinish = true := by
    cases hf : (g.peek r).isFinish
    · simp [hf] at hend
    · rfl
  simp only [hfin, if_true, Except.ok.injEq] at hend
  subst hend
  -- what is left starts with the end token, which only closes the list
  rcases List.append_eq_append_iff.1 hts.symm with ⟨a, rfl, rfl⟩ | ⟨c', rfl, hc'⟩
  · rcases a with _ | ⟨u, a⟩
    · simpa using hc
    · have hu := hbody u (by simp)
      simp [Grammar.peek, hu] at hfin
  · rcases c' with _ | ⟨u, c'⟩
    · simpa using hc
    · obtain ⟨rfl, -⟩ := List.cons_eq_cons.1 (hc'.trans (List.cons_append ..))
      have := hc.unended (Token.finish n) (by simp)
      simp [Token.finish, Token.isFinish] at this

/-- No sentence followed by an end token starts with the tokens up to one where the whole
reading refuses whatever follows. -/
theorem not_viable_of_fails {pre : List Token} {t : Token} {err : ParseError}
    (h : ∀ post', g.whole (pre ++ t :: post') = .error err) (hk : err.problem.kind ≠ .resource) :
    ¬ Viable g.names (pre ++ [t]) := by
  rintro ⟨s, e, fin, hs, hfin, post', hpre⟩
  have hy := whole_sentence g hs hfin
  rw [← hpre, List.append_assoc, List.singleton_append, h post'] at hy
  rcases hy with hy | ⟨err', hy, hres⟩
  · cases hy
  · cases hy
    exact hk hres

end Grammar

/-- The tokenizer ends every list with the end token and uses it nowhere else. -/
theorem scanFrom_ends {cs : List Char} {pos : Nat} {ts : List Token}
    (h : scanFrom cs pos = .ok ts) : ∃ body n, ts = body ++ [Token.finish n] ∧ Unended body := by
  fun_induction scanFrom cs pos generalizing ts
  case case1 pos =>
    cases h
    exact ⟨[], pos, rfl, Unended.nil⟩
  case case2 ih => exact ih h
  case case3 => cases h
  case case4 ih =>
    obtain ⟨us, hus, rfl⟩ := map_eq_ok.1 h
    obtain ⟨body, n, rfl, hbody⟩ := ih hus
    exact ⟨_ :: body, n, rfl, hbody.cons (Token.isFinish_of_kind rfl (by simp))⟩
  case case5 kind _ ih =>
    have hk : kind ≠ .finish := by
      simp only [kind]
      split <;> simp
    obtain ⟨us, hus, rfl⟩ := map_eq_ok.1 h
    obtain ⟨body, n, rfl, hbody⟩ := ih hus
    exact ⟨_ :: body, n, rfl, hbody.cons (Token.isFinish_of_kind rfl hk)⟩
  case case6 single kind hsingle ih =>
    -- a single character is an operator, a parenthesis or a comma
    have hk : kind ≠ .finish := by
      rintro rfl
      simp only [single] at hsingle
      repeat' split at hsingle
      all_goals cases hsingle
    obtain ⟨us, hus, rfl⟩ := map_eq_ok.1 h
    obtain ⟨body, n, rfl, hbody⟩ := ih hus
    exact ⟨_ :: body, n, rfl, hbody.cons (Token.isFinish_of_kind rfl hk)⟩
  case case7 => cases h

end ScalarDiff.Source

namespace ScalarDiff

open Source

/-- The reader accepts exactly the sentences of its grammar. For the tokens of a text and names
that declare every variable among them, and unless nesting runs out: the text is read as a tree
exactly when the tokens before the end token form a sentence with that tree, which is then the
only tree they form; and a text that is refused is refused for a syntactic cause at the first
token where the tokens so far stop being the start of a sentence followed by the end token. -/
theorem Expr.parse_iff_sentence {source : String} {names : List String} {limit : NestingLimit}
    {ts : List Token} (hts : tokenize source = .ok ts) (hnames : Declared names ts)
    (hdeep : ∀ err, Expr.parse source names limit = .error err → err.problem.kind ≠ .resource) :
    (∀ e, Expr.parse source names limit = .ok e ↔ IsExpr names ts.dropLast e) ∧
    (∀ e e', IsExpr names ts.dropLast e → IsExpr names ts.dropLast e' → e = e') ∧
    (∀ err, Expr.parse source names limit = .error err → err.problem.kind = .syntactic ∧
      ∃ k, ∃ hk : k < ts.length, err = .atToken err.problem ts[k] ∧
        Viable names (ts.take k) ∧ ¬ Viable names (ts.take (k + 1))) := by
  obtain ⟨g, rfl, hparse⟩ : ∃ g : Grammar, g.names = names ∧
      Expr.parse source names limit = g.whole ts :=
    ⟨⟨names, limit, source.length⟩, rfl, by simp only [Expr.parse, hts]⟩
  obtain ⟨body, n, rfl, hbody⟩ := scanFrom_ends hts
  rw [hparse] at hdeep ⊢
  rw [List.dropLast_concat]
  have hread : ∀ e, g.whole (body ++ [Token.finish n]) = .ok e ↔ IsExpr g.names body e := by
    intro e
    refine ⟨g.sentence_of_whole hbody, fun hs => ?_⟩
    rcases g.whole_sentence hs (show (Token.finish n).kind = .finish from rfl) with
      hok | ⟨err, herr, hres⟩
    · exact hok
    · exact absurd hres (hdeep err herr)
  refine ⟨hread, fun e e' he he' => ?_, fun err herr => ?_⟩
  · have h₁ := (hread e).2 he
    rw [(hread e').2 he'] at h₁
    cases h₁
    rfl
  obtain ⟨pre, t, post, hsplit, hat, hsyn, ⟨c, e, hc⟩, hall⟩ :=
    g.whole_fails herr hnames ⟨Token.finish n, by simp, rfl⟩ (hdeep err herr)
  refine ⟨hsyn, pre.length, by simp [hsplit], ?_, ?_, ?_⟩
  · simpa [hsplit] using hat
  · refine ⟨pre ++ c, e, Token.finish n, hc, rfl, ?_⟩
    rw [hsplit, List.take_left']
    · exact ⟨c ++ [Token.finish n], by simp⟩
    · rfl
  · rw [hsplit, List.take_append, List.take_of_length_le (by omega)]
    simpa using g.not_viable_of_fails hall (hdeep err herr)

/-- `-a^b`, read over the names `a` and `b`: its tokens are a sentence and it is read. -/
theorem Expr.parse_signed_power :
    ∃ ts, tokenize "-a^b" = .ok ts ∧ Declared ["a", "b"] ts ∧
      (∀ err, Expr.parse "-a^b" ["a", "b"] (.whole 100) = .error err →
        err.problem.kind ≠ .resource) ∧
      ((∀ e, Expr.parse "-a^b" ["a", "b"] (.whole 100) = .ok e ↔ IsExpr ["a", "b"] ts.dropLast e) ∧
      (∀ e e', IsExpr ["a", "b"] ts.dropLast e → IsExpr ["a", "b"] ts.dropLast e' → e = e') ∧
      (∀ err, Expr.parse "-a^b" ["a", "b"] (.whole 100) = .error err →
        err.problem.kind = .syntactic ∧ ∃ k, ∃ hk : k < ts.length,
          err = .atToken err.problem ts[k] ∧ Viable ["a", "b"] (ts.take k) ∧
            ¬ Viable ["a", "b"] (ts.take (k + 1)))) := by
  have hchars : "-a^b".toList = ['-', 'a', '^', 'b'] := by decide
  have hts : tokenize "-a^b" = .ok [⟨.operator, "-", 0, 1⟩, ⟨.variable, "a", 1, 2⟩,
      ⟨.operator, "^", 2, 3⟩, ⟨.variable, "b", 3, 4⟩, Token.finish 4] := by
    simp [tokenize, hchars, scanFrom, isBlank, isDigit, isNameStart, isNamePart, functionNames]
  have hnames : Declared ["a", "b"] [⟨.operator, "-", 0, 1⟩, ⟨.variable, "a", 1, 2⟩,
      ⟨.operator, "^", 2, 3⟩, ⟨.variable, "b", 3, 4⟩, Token.finish 4] := by
    intro t ht hk
    simp only [List.mem_cons, List.not_mem_nil, or_false] at ht
    rcases ht with rfl | rfl | rfl | rfl | rfl <;> simp_all [Token.finish]
  have hread : (Expr.parse "-a^b" ["a", "b"] (.whole 100)).toOption.isSome := by decide +kernel
  have hdeep : ∀ err, Expr.parse "-a^b" ["a", "b"] (.whole 100) = .error err →
      err.problem.kind ≠ .resource := by
    intro err herr
    rw [herr] at hread
    cases hread
  exact ⟨_, hts, hnames, hdeep, Expr.parse_iff_sentence hts hnames hdeep⟩

end ScalarDiff
