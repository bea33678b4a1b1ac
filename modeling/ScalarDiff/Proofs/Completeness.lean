import ScalarDiff.Proofs.Descent

/-!
# Every phrase of the grammar is read

The converse of soundness: a production given a phrase of its kind, followed by tokens that
cannot continue the phrase, reads exactly that phrase and builds its expression. The one way it
can fail is by reaching the nesting limit, which depends on how deep the phrase nests and not on
which tokens it has.

What may follow a phrase is said by `Stops`: the first token left is none of the operators that
would extend it. A factor must not be followed by `^`, a term by `* / ^`, an expression by any
of the five operators. A primary and an argument list end on their own tokens and need nothing.
-/

namespace ScalarDiff.Source

open ScalarDiff

/-- The first token of `r`, if any, is none of the operators `ops`. -/
def Stops (ops : List String) (r : List Token) : Prop := ∀ t ∈ r.head?, isOneOf t ops = false

/-- A production's outcome: the expected result, or a refusal for nesting too deep. -/
def Yields {α : Type} (o : Except ParseError α) (b : α) : Prop :=
  o = .ok b ∨ ∃ err, o = .error err ∧ err.problem.kind = .resource

namespace Stops

variable {ops : List String}

theorem head {t : Token} {r : List Token} (h : Stops ops (t :: r)) : isOneOf t ops = false :=
  h t rfl

theorem nil : Stops ops [] := by
  intro t ht
  cases ht

theorem of_kind {t : Token} {r : List Token} (hk : t.kind ≠ .operator) : Stops ops (t :: r) := by
  intro u hu
  cases hu
  exact Bool.eq_false_iff.2 fun h => hk (isOneOf_iff.1 h).1

theorem mono {ops' : List String} {r : List Token} (h : Stops ops r)
    (hsub : ∀ op ∈ ops', op ∈ ops) : Stops ops' r := by
  intro t ht
  refine Bool.eq_false_iff.2 fun h' => ?_
  obtain ⟨hk, hmem⟩ := isOneOf_iff.1 h'
  have := h t ht
  rw [Bool.eq_false_iff] at this
  exact this (isOneOf_iff.2 ⟨hk, hsub _ hmem⟩)

/-- An operator of `ops'` stops whatever `ops` extends when the two share no operator. -/
theorem of_isOneOf {ops' : List String} {t : Token} {r : List Token}
    (ht : isOneOf t ops' = true) (hdis : ∀ op ∈ ops', op ∉ ops) : Stops ops (t :: r) := by
  intro u hu
  cases hu
  refine Bool.eq_false_iff.2 fun h => ?_
  exact hdis _ (isOneOf_iff.1 ht).2 (isOneOf_iff.1 h).2

end Stops

/-- A `+ -` chain followed by what may follow an expression may follow a term: it is empty, or
it starts with `+` or `-`. -/
theorem IsExprTail.stops {names : List String} {acc e : Expr} {us r : List Token}
    (h : IsExprTail names acc us e) (hr : Stops ["+", "-", "*", "/", "^"] r) :
    Stops ["*", "/", "^"] (us ++ r) := by
  rcases h.leads with rfl | ⟨t, rest, rfl, ht⟩
  · exact hr.mono (by simp)
  · exact Stops.of_isOneOf ht (by simp)

/-- A `* /` chain followed by what may follow a term may follow a factor. -/
theorem IsTermTail.stops {names : List String} {acc e : Expr} {us r : List Token}
    (h : IsTermTail names acc us e) (hr : Stops ["*", "/", "^"] r) :
    Stops ["^"] (us ++ r) := by
  rcases h.leads with rfl | ⟨t, rest, rfl, ht⟩
  · exact hr.mono (by simp)
  · exact Stops.of_isOneOf ht (by simp)

namespace Yields

variable {α β : Type} {o : Except ParseError α} {a : α}

theorem bind {f : α → Except ParseError β} {b : β} (h : Yields o a) (hf : Yields (f a) b) :
    Yields (o >>= f) b := by
  rcases h with rfl | ⟨err, rfl, hk⟩
  · exact hf
  · exact .inr ⟨err, rfl, hk⟩

theorem map {f : α → β} {b : β} (h : Yields o a) (hb : f a = b) : Yields (f <$> o) b := by
  rcases h with rfl | ⟨err, rfl, hk⟩
  · exact .inl (by rw [map_ok, hb])
  · exact .inr ⟨err, rfl, hk⟩

/-- A refusal for nesting is an acceptable outcome, so a production that refuses at once beyond
the limit only needs checking below it. -/
theorem within {g : Grammar} {d : Nat} {t : Token}
    (hdeep : g.limit.reached d = true → o = .error (.atToken (.tooDeep g.limit) t))
    (h : g.limit.reached d = false → Yields o a) : Yields o a := by
  cases hd : g.limit.reached d
  · exact h hd
  · exact .inr ⟨_, hdeep hd, rfl⟩

end Yields

namespace Grammar

variable (g : Grammar)

mutual

theorem expr_complete : ∀ {c : List Token} {e : Expr}, IsExpr g.names c e →
    ∀ (d : Nat) {r : List Token}, Stops ["+", "-", "*", "/", "^"] r →
      Yields (g.expr d (c ++ r)).plain (e, r)
  | _, _, .chain h₁ h₂, d, _, hr => by
    refine Yields.within (expr_deep · _) fun hd => ?_
    rw [expr_within g hd, List.append_assoc]
    exact (term_complete h₁ (d + 1) (h₂.stops hr)).bind (exprTail_complete h₂ d hr)

theorem exprTail_complete : ∀ {acc : Expr} {us : List Token} {e : Expr},
    IsExprTail g.names acc us e → ∀ (d : Nat) {r : List Token},
      Stops ["+", "-", "*", "/", "^"] r → Yields (g.exprTail d acc (us ++ r)).plain (e, r)
  | _, _, _, .stop, d, r, hr => by
    -- the loop stops at the first token left, which is no `+` or `-`
    rw [List.nil_append]
    rcases r with _ | ⟨t, rest⟩
    · exact .inl (exprTail_nil g _)
    · exact .inl (exprTail_stop g (hr.mono (by simp)).head)
  | _, _, _, .more hop h₁ h₂, d, _, hr => by
    rw [List.cons_append, List.append_assoc, exprTail_more g hop]
    exact (term_complete h₁ (d + 1) (h₂.stops hr)).bind (exprTail_complete h₂ d hr)

theorem term_complete : ∀ {c : List Token} {e : Expr}, IsTerm g.names c e →
    ∀ (d : Nat) {r : List Token}, Stops ["*", "/", "^"] r →
      Yields (g.term d (c ++ r)).plain (e, r)
  | _, _, .chain h₁ h₂, d, _, hr => by
    refine Yields.within (term_deep · _) fun hd => ?_
    rw [term_within g hd, List.append_assoc]
    exact (factor_complete h₁ (d + 1) (h₂.stops hr)).bind (termTail_complete h₂ d hr)

theorem termTail_complete : ∀ {acc : Expr} {us : List Token} {e : Expr},
    IsTermTail g.names acc us e → ∀ (d : Nat) {r : List Token},
      Stops ["*", "/", "^"] r → Yields (g.termTail d acc (us ++ r)).plain (e, r)
  | _, _, _, .stop, d, r, hr => by
    -- the loop stops at the first token left, which is no `*` or `/`
    rw [List.nil_append]
    rcases r with _ | ⟨t, rest⟩
    · exact .inl (termTail_nil g _)
    · exact .inl (termTail_stop g (hr.mono (by simp)).head)
  | _, _, _, .more hop h₁ h₂, d, _, hr => by
    rw [List.cons_append, List.append_assoc, termTail_more g hop]
    exact (factor_complete h₁ (d + 1) (h₂.stops hr)).bind (termTail_complete h₂ d hr)

theorem factor_complete : ∀ {c : List Token} {e : Expr}, IsFactor g.names c e →
    ∀ (d : Nat) {r : List Token}, Stops ["^"] r → Yields (g.factor d (c ++ r)).plain (e, r)
  | _, _, .primary h, d, r, hr => by
    refine Yields.within (factor_deep · _) fun hd => ?_
    rw [factor_within g hd]
    refine (primary_complete h (d + 1) r).bind ?_
    -- no `^` follows, so the factor is its primary
    rcases r with _ | ⟨t, rest⟩
    · exact .inl rfl
    · have hop : t.isOperator "^" = false := by simpa [isOneOf] using hr.head
      exact .inl (by simp only [hop, Bool.false_eq_true, if_false])
  | _, _, .power h₁ hop h₂, d, _, hr => by
    refine Yields.within (factor_deep · _) fun hd => ?_
    rw [factor_within g hd, List.append_assoc, List.cons_append]
    refine (primary_complete h₁ (d + 1) _).bind ?_
    dsimp only
    rw [if_pos hop]
    exact (factor_complete h₂ (d + 1) hr).map rfl

theorem primary_complete : ∀ {c : List Token} {e : Expr}, IsPrimary g.names c e →
    ∀ (d : Nat) (r : List Token), Yields (g.primary d (c ++ r)).plain (e, r)
  | _, _, .neg ht h, d, r | _, _, .pos ht h, d, r => by
    refine Yields.within (primary_deep · _) fun hd => ?_
    obtain ⟨hk, htext⟩ := Token.kind_of_isOperator ht
    rw [List.cons_append, primary_sign g hd hk (by simp [htext])]
    exact (primary_complete h (d + 1) r).map (by simp [htext])
  | _, _, .num hk, d, r =>
    Yields.within (primary_deep · _) fun hd => .inl (primary_number g hd hk)
  | _, _, .var hk hi, d, r =>
    Yields.within (primary_deep · _) fun hd => .inl (primary_variable g hd hk hi)
  | _, _, .callEmpty ht hp hc, d, r =>
    Yields.within (primary_deep · _) fun hd => .inl (primary_callEmpty g hd ht hp hc)
  | _, _, .call ht hp hargs, d, r => by
    refine Yields.within (primary_deep · _) fun hd => ?_
    rw [List.cons_append, List.cons_append, primary_call g hd ht hp]
    · exact arguments_complete hargs _ d [] r
    · -- the arguments open with an operand, so the parenthesis is not closed at once
      obtain ⟨u, rest, hargs', -, hu⟩ := hargs.opens
      rw [hargs']
      simpa using hu
  | _, _, .paren hp h hc, d, r => by
    refine Yields.within (primary_deep · _) fun hd => ?_
    rw [List.cons_append, List.append_assoc, List.singleton_append, primary_paren g hd hp]
    refine (expr_complete h (d + 1) (Stops.of_kind (by simp [hc]))).bind ?_
    dsimp only
    rw [hc]
    exact .inl rfl

theorem arguments_complete : ∀ {cs : List Token} {args : List Expr}, IsArgs g.names cs args →
    ∀ (name : String) (d : Nat) (acc : List Expr) (r : List Token),
      Yields (g.arguments name d acc (cs ++ r)).plain (.call name (acc ++ args), r)
  | _, _, .last h hc, name, d, acc, r => by
    rw [arguments_plain, List.append_assoc, List.singleton_append]
    refine (expr_complete h (d + 1) (Stops.of_kind (by simp [hc]))).bind ?_
    dsimp only
    rw [hc]
    exact .inl rfl
  | _, _, @IsArgs.more _ _ _ _ e _ h hc h', name, d, acc, r => by
    rw [arguments_plain, List.append_assoc, List.cons_append]
    refine (expr_complete h (d + 1) (Stops.of_kind (by simp [hc]))).bind ?_
    dsimp only
    rw [hc]
    dsimp only
    split
    · next hs =>
      -- the next argument opens with an operand, not with `,` or `)`
      obtain ⟨u, rest, hus, h₁, h₂⟩ := h'.opens
      rw [hus] at hs
      cases hk : u.kind <;> simp_all [startsWith]
    · simpa using arguments_complete h' name d (acc ++ [e]) r

end

end Grammar

end ScalarDiff.Source
