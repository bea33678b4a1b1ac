import ScalarDiff.Proofs.DepthLimit
import ScalarDiff.Proofs.Lexing

/-!
# The reader's nesting limit only ever refuses

Every production of the reader checks its depth against the limit on entry and does nothing else
with the limit: the limit appears in the reader's results only inside a refusal for nesting. So
a reading that is not refused for nesting passed every depth check it made, and under a limit
that depths reach no more often it passes the same checks and reads the same tree, or fails with
the same error (`Grammar.expr_limit`). Each production also goes no deeper than the measure that
makes the reader terminate, five levels per token left: so a limit beyond that never refuses
(`Grammar.expr_shallow`), and every text has a threshold of the limit below which it is refused
for nesting and from which on its reading is fixed (`Expr.parse_threshold`).

`nesting_limit_monotone` gathers these facts for the reader and the compiler.
-/

namespace ScalarDiff.Source

open ScalarDiff

namespace Grammar

variable (g : Grammar) {L' : NestingLimit}

/-- A production whose reading is not refused for nesting was entered below the limit. -/
theorem reached_false_of_shallow {α : Type} {o : Except ParseError α} {t : Token} {d : Nat}
    (h : ¬ FailsOn (·.problem.kind = ErrorKind.resource) o)
    (hdeep : g.limit.reached d = true → o = .error (.atToken (.tooDeep g.limit) t)) :
    g.limit.reached d = false := by
  cases hd : g.limit.reached d
  · rfl
  · exact absurd ⟨_, hdeep hd, rfl⟩ h

theorem reached_false_of_le (hl : ∀ d, L'.reached d = true → g.limit.reached d = true) {d : Nat}
    (hd : g.limit.reached d = false) : L'.reached d = false := by
  cases hd' : L'.reached d
  · rfl
  · rw [hl d hd'] at hd
    cases hd

mutual

/-- An expression not refused for nesting reads the same under a limit that depths reach no more
often. -/
theorem expr_limit (hl : ∀ d, L'.reached d = true → g.limit.reached d = true) (d : Nat)
    (ts : List Token) (h : ¬ FailsOn (·.problem.kind = ErrorKind.resource) (g.expr d ts).plain) :
    ({ g with limit := L' }.expr d ts).plain = (g.expr d ts).plain := by
  have hd := g.reached_false_of_shallow h (expr_deep · ts)
  rw [expr_within g hd] at h ⊢
  rw [expr_within { g with limit := L' } (g.reached_false_of_le hl hd)]
  exact bind_congr_of_not_failsOn (term_limit hl (d + 1) ts) (fun x hx hk => by
    obtain ⟨first, r⟩ := x
    have := Parsed.length_le hx
    exact exprTail_limit hl d first r hk) h
termination_by ts.length * 5 + 3
decreasing_by all_goals omega

theorem exprTail_limit (hl : ∀ d, L'.reached d = true → g.limit.reached d = true) (d : Nat)
    (acc : Expr) (ts : List Token)
    (h : ¬ FailsOn (·.problem.kind = ErrorKind.resource) (g.exprTail d acc ts).plain) :
    ({ g with limit := L' }.exprTail d acc ts).plain = (g.exprTail d acc ts).plain := by
  generalize hts : ts = us at h ⊢
  rcases us with _ | ⟨t, rest⟩
  · rw [exprTail_nil, exprTail_nil]
  · cases hop : isOneOf t ["+", "-"]
    · rw [exprTail_stop _ hop, exprTail_stop _ hop]
    · rw [exprTail_more _ hop] at h ⊢
      rw [exprTail_more _ hop]
      exact bind_congr_of_not_failsOn (term_limit hl (d + 1) rest)
        (fun x hx hk => by
          obtain ⟨right, r⟩ := x
          have := Parsed.length_le hx
          exact exprTail_limit hl d _ r hk) h
termination_by ts.length * 5
decreasing_by all_goals (subst_vars; simp only [List.length_cons]; omega)

theorem term_limit (hl : ∀ d, L'.reached d = true → g.limit.reached d = true) (d : Nat)
    (ts : List Token) (h : ¬ FailsOn (·.problem.kind = ErrorKind.resource) (g.term d ts).plain) :
    ({ g with limit := L' }.term d ts).plain = (g.term d ts).plain := by
  have hd := g.reached_false_of_shallow h (term_deep · ts)
  rw [term_within g hd] at h ⊢
  rw [term_within { g with limit := L' } (g.reached_false_of_le hl hd)]
  exact bind_congr_of_not_failsOn (factor_limit hl (d + 1) ts) (fun x hx hk => by
    obtain ⟨first, r⟩ := x
    have := Parsed.length_le hx
    exact termTail_limit hl d first r hk) h
termination_by ts.length * 5 + 2
decreasing_by all_goals omega

theorem termTail_limit (hl : ∀ d, L'.reached d = true → g.limit.reached d = true) (d : Nat)
    (acc : Expr) (ts : List Token)
    (h : ¬ FailsOn (·.problem.kind = ErrorKind.resource) (g.termTail d acc ts).plain) :
    ({ g with limit := L' }.termTail d acc ts).plain = (g.termTail d acc ts).plain := by
  generalize hts : ts = us at h ⊢
  rcases us with _ | ⟨t, rest⟩
  · rw [termTail_nil, termTail_nil]
  · cases hop : isOneOf t ["*", "/"]
    · rw [termTail_stop _ hop, termTail_stop _ hop]
    · rw [termTail_more _ hop] at h ⊢
      rw [termTail_more _ hop]
      exact bind_congr_of_not_failsOn (factor_limit hl (d + 1) rest)
        (fun x hx hk => by
          obtain ⟨right, r⟩ := x
          have := Parsed.length_le hx
          exact termTail_limit hl d _ r hk) h
termination_by ts.length * 5
decreasing_by all_goals (subst_vars; simp only [List.length_cons]; omega)

theorem factor_limit (hl : ∀ d, L'.reached d = true → g.limit.reached d = true) (d : Nat)
    (ts : List Token)
    (h : ¬ FailsOn (·.problem.kind = ErrorKind.resource) (g.factor d ts).plain) :
    ({ g with limit := L' }.factor d ts).plain = (g.factor d ts).plain := by
  have hd := g.reached_false_of_shallow h (factor_deep · ts)
  rw [factor_within g hd] at h ⊢
  rw [factor_within { g with limit := L' } (g.reached_false_of_le hl hd)]
  exact bind_congr_of_not_failsOn (primary_limit hl (d + 1) ts) (fun x hx hk => by
    obtain ⟨base, r⟩ := x
    have := Parsed.length_le hx
    rcases r with _ | ⟨t, rest⟩
    · rfl
    · dsimp only at hk ⊢
      by_cases hop : t.isOperator "^" = true
      · simp only [if_pos hop] at hk ⊢
        rw [factor_limit hl (d + 1) rest (fun hf => hk (failsOn_map.2 hf))]
      · simp only [if_neg hop]) h
termination_by ts.length * 5 + 1
decreasing_by all_goals ((try simp only [List.length_cons] at this); omega)

theorem primary_limit (hl : ∀ d, L'.reached d = true → g.limit.reached d = true) (d : Nat)
    (ts : List Token)
    (h : ¬ FailsOn (·.problem.kind = ErrorKind.resource) (g.primary d ts).plain) :
    ({ g with limit := L' }.primary d ts).plain = (g.primary d ts).plain := by
  have hd := g.reached_false_of_shallow h (primary_deep · ts)
  rw [primary_plain, (depthCheck_eq_none g d).2 hd] at h
  rw [primary_plain, primary_plain, (depthCheck_eq_none g d).2 hd,
    (depthCheck_eq_none { g with limit := L' } d).2 (g.reached_false_of_le hl hd)]
  dsimp only at h ⊢
  generalize hts : ts = us at h ⊢
  rcases us with _ | ⟨t, rest⟩
  · rfl
  · dsimp only at h ⊢
    cases hk : t.kind with
    | operator =>
      simp only [hk] at h
      dsimp only
      by_cases hs : (t.text == "-" || t.text == "+") = true
      · simp only [if_pos hs] at h ⊢
        rw [primary_limit hl (d + 1) rest (fun hf => h (failsOn_map.2 hf))]
      · simp only [if_neg hs]
    | function =>
      simp only [hk] at h
      dsimp only
      -- a call: the arguments are read below the call's own depth check
      generalize hrest : rest = vs at h ⊢
      rcases vs with _ | ⟨p, afterOpen⟩
      · rfl
      · dsimp only at h ⊢
        cases hp : p.kind with
        | openParen =>
          simp only [hp] at h
          dsimp only
          generalize hopen : afterOpen = ws at h ⊢
          rcases ws with _ | ⟨c, afterClose⟩
          · exact arguments_limit hl t.text d [] [] h
          · dsimp only at h ⊢
            cases hc : c.kind with
            | closeParen => rfl
            | _ =>
              simp only [hc] at h
              exact arguments_limit hl t.text d [] _ h
        | _ => rfl
    | openParen =>
      simp only [hk] at h
      dsimp only
      exact bind_congr_of_not_failsOn (expr_limit hl (d + 1) rest) (fun _ _ _ => rfl) h
    | _ => rfl
termination_by ts.length * 5
decreasing_by all_goals (subst_vars; simp only [List.length_cons]; omega)

theorem arguments_limit (hl : ∀ d, L'.reached d = true → g.limit.reached d = true)
    (name : String) (d : Nat) (acc : List Expr) (ts : List Token)
    (h : ¬ FailsOn (·.problem.kind = ErrorKind.resource) (g.arguments name d acc ts).plain) :
    ({ g with limit := L' }.arguments name d acc ts).plain =
      (g.arguments name d acc ts).plain := by
  rw [arguments_plain] at h ⊢
  rw [arguments_plain]
  exact bind_congr_of_not_failsOn (expr_limit hl (d + 1) ts) (fun x hx hk => by
    obtain ⟨arg, r⟩ := x
    have := Parsed.length_le hx
    rcases r with _ | ⟨t, rest⟩
    · rfl
    · dsimp only at hk ⊢
      cases hk' : t.kind with
      | comma =>
        simp only [hk'] at hk
        dsimp only
        split
        · rfl
        · rename_i hs
          rw [if_neg hs] at hk
          exact arguments_limit hl name d _ rest hk
      | _ => rfl) h
termination_by ts.length * 5 + 4
decreasing_by all_goals ((try simp only [List.length_cons] at this); omega)

end

/-- A refusal for a problem other than nesting. -/
theorem not_failsOn_atToken {α : Type} {p : Problem} (t : Token)
    (hp : p.kind ≠ ErrorKind.resource) :
    ¬ FailsOn (·.problem.kind = ErrorKind.resource)
      (Except.error (ParseError.atToken p t) : Except ParseError α) := by
  rw [failsOn_error]
  exact hp

/-! ## How deep the reader goes

Each production goes no deeper below its own depth than its termination measure: every call it
makes is at most one level deeper and has a measure at least one smaller. -/

mutual

/-- An expression is not refused for nesting when the limit is reached at none of the depths
its measure spans. -/
theorem expr_shallow (d : Nat) (ts : List Token)
    (hc : g.limit.Clear d (d + (ts.length * 5 + 3))) :
    ¬ FailsOn (·.problem.kind = ErrorKind.resource) (g.expr d ts).plain := by
  rw [expr_within g (hc d (Nat.le_refl d) (by omega))]
  refine not_failsOn_bind (term_shallow (d + 1) ts (hc.mono (by omega) (by omega)))
    fun x hx => ?_
  obtain ⟨first, r⟩ := x
  have := Parsed.length_le hx
  exact exprTail_shallow d first r (hc.mono (Nat.le_refl d) (by omega))
termination_by ts.length * 5 + 3
decreasing_by all_goals omega

theorem exprTail_shallow (d : Nat) (acc : Expr) (ts : List Token)
    (hc : g.limit.Clear d (d + ts.length * 5)) :
    ¬ FailsOn (·.problem.kind = ErrorKind.resource) (g.exprTail d acc ts).plain := by
  generalize hts : ts = us at hc ⊢
  rcases us with _ | ⟨t, rest⟩
  · rw [exprTail_nil]
    exact not_failsOn_ok _ _
  · simp only [List.length_cons] at hc
    cases hop : isOneOf t ["+", "-"]
    · rw [exprTail_stop _ hop]
      exact not_failsOn_ok _ _
    · rw [exprTail_more _ hop]
      refine not_failsOn_bind (term_shallow (d + 1) rest (hc.mono (by omega) (by omega)))
        fun x hx => ?_
      obtain ⟨right, r⟩ := x
      have := Parsed.length_le hx
      exact exprTail_shallow d _ r (hc.mono (Nat.le_refl d) (by omega))
termination_by ts.length * 5
decreasing_by all_goals (subst_vars; simp only [List.length_cons]; omega)

theorem term_shallow (d : Nat) (ts : List Token)
    (hc : g.limit.Clear d (d + (ts.length * 5 + 2))) :
    ¬ FailsOn (·.problem.kind = ErrorKind.resource) (g.term d ts).plain := by
  rw [term_within g (hc d (Nat.le_refl d) (by omega))]
  refine not_failsOn_bind (factor_shallow (d + 1) ts (hc.mono (by omega) (by omega)))
    fun x hx => ?_
  obtain ⟨first, r⟩ := x
  have := Parsed.length_le hx
  exact termTail_shallow d first r (hc.mono (Nat.le_refl d) (by omega))
termination_by ts.length * 5 + 2
decreasing_by all_goals omega

theorem termTail_shallow (d : Nat) (acc : Expr) (ts : List Token)
    (hc : g.limit.Clear d (d + ts.length * 5)) :
    ¬ FailsOn (·.problem.kind = ErrorKind.resource) (g.termTail d acc ts).plain := by
  generalize hts : ts = us at hc ⊢
  rcases us with _ | ⟨t, rest⟩
  · rw [termTail_nil]
    exact not_failsOn_ok _ _
  · simp only [List.length_cons] at hc
    cases hop : isOneOf t ["*", "/"]
    · rw [termTail_stop _ hop]
      exact not_failsOn_ok _ _
    · rw [termTail_more _ hop]
      refine not_failsOn_bind (factor_shallow (d + 1) rest (hc.mono (by omega) (by omega)))
        fun x hx => ?_
      obtain ⟨right, r⟩ := x
      have := Parsed.length_le hx
      exact termTail_shallow d _ r (hc.mono (Nat.le_refl d) (by omega))
termination_by ts.length * 5
decreasing_by all_goals (subst_vars; simp only [List.length_cons]; omega)

theorem factor_shallow (d : Nat) (ts : List Token)
    (hc : g.limit.Clear d (d + (ts.length * 5 + 1))) :
    ¬ FailsOn (·.problem.kind = ErrorKind.resource) (g.factor d ts).plain := by
  rw [factor_within g (hc d (Nat.le_refl d) (by omega))]
  refine not_failsOn_bind (primary_shallow (d + 1) ts (hc.mono (by omega) (by omega)))
    fun x hx => ?_
  obtain ⟨base, r⟩ := x
  have := Parsed.length_le hx
  rcases r with _ | ⟨t, rest⟩
  · exact not_failsOn_ok _ _
  · dsimp only
    split
    · simp only [List.length_cons] at this
      exact fun hf => factor_shallow (d + 1) rest (hc.mono (by omega) (by omega))
        (failsOn_map.1 hf)
    · exact not_failsOn_ok _ _
termination_by ts.length * 5 + 1
decreasing_by all_goals ((try simp only [List.length_cons] at this); omega)

theorem primary_shallow (d : Nat) (ts : List Token)
    (hc : g.limit.Clear d (d + ts.length * 5)) :
    ¬ FailsOn (·.problem.kind = ErrorKind.resource) (g.primary d ts).plain := by
  rw [primary_plain, (depthCheck_eq_none g d).2 (hc d (Nat.le_refl d) (by omega))]
  dsimp only
  generalize hts : ts = us at hc ⊢
  rcases us with _ | ⟨t, rest⟩
  · exact not_failsOn_atToken _ (by decide)
  · simp only [List.length_cons] at hc
    dsimp only
    cases hk : t.kind with
    | operator =>
      dsimp only
      split
      · exact fun hf => primary_shallow (d + 1) rest (hc.mono (by omega) (by omega))
          (failsOn_map.1 hf)
      · exact not_failsOn_atToken _ (by decide)
    | number v => exact not_failsOn_ok _ _
    | «variable» =>
      dsimp only
      split
      · exact not_failsOn_ok _ _
      · exact not_failsOn_atToken _ (by simp [Problem.kind])
    | function =>
      dsimp only
      generalize hrest : rest = vs at hc ⊢
      rcases vs with _ | ⟨p, afterOpen⟩
      · exact not_failsOn_atToken _ (by decide)
      · simp only [List.length_cons] at hc
        dsimp only
        cases hp : p.kind with
        | openParen =>
          dsimp only
          generalize hopen : afterOpen = ws at hc ⊢
          rcases ws with _ | ⟨c, afterClose⟩
          · exact arguments_shallow t.text d [] [] (hc.mono (Nat.le_refl d) (by simp))
          · simp only [List.length_cons] at hc
            dsimp only
            cases hc' : c.kind with
            | closeParen => exact not_failsOn_ok _ _
            | _ =>
              exact arguments_shallow t.text d [] _
                (hc.mono (Nat.le_refl d) (by simp only [List.length_cons]; omega))
        | _ => exact not_failsOn_atToken _ (by decide)
    | openParen =>
      dsimp only
      refine not_failsOn_bind (expr_shallow (d + 1) rest (hc.mono (by omega) (by omega)))
        fun x _ => ?_
      obtain ⟨e, r⟩ := x
      rcases r with _ | ⟨c, afterClose⟩
      · exact not_failsOn_atToken _ (by decide)
      · dsimp only
        split
        · exact not_failsOn_ok _ _
        · exact not_failsOn_atToken _ (by decide)
    | _ => exact not_failsOn_atToken _ (by decide)
termination_by ts.length * 5
decreasing_by all_goals (subst_vars; simp only [List.length_cons]; omega)

theorem arguments_shallow (name : String) (d : Nat) (acc : List Expr) (ts : List Token)
    (hc : g.limit.Clear d (d + (ts.length * 5 + 4))) :
    ¬ FailsOn (·.problem.kind = ErrorKind.resource) (g.arguments name d acc ts).plain := by
  rw [arguments_plain]
  refine not_failsOn_bind (expr_shallow (d + 1) ts (hc.mono (by omega) (by omega)))
    fun x hx => ?_
  obtain ⟨arg, r⟩ := x
  have := Parsed.length_le hx
  rcases r with _ | ⟨t, rest⟩
  · exact not_failsOn_atToken _ (by decide)
  · simp only [List.length_cons] at this
    dsimp only
    cases hk : t.kind with
    | closeParen => exact not_failsOn_ok _ _
    | comma =>
      dsimp only
      split
      · exact not_failsOn_atToken _ (by simp [Problem.kind])
      · exact arguments_shallow name d _ rest (hc.mono (Nat.le_refl d) (by omega))
    | _ => exact not_failsOn_atToken _ (by decide)
termination_by ts.length * 5 + 4
decreasing_by all_goals ((try simp only [List.length_cons] at this); omega)

end

/-- The whole reading under a limit above the reader's measure is not refused for nesting. -/
theorem whole_shallow (ts : List Token) (hc : g.limit.Clear 0 (ts.length * 5 + 3)) :
    ¬ FailsOn (·.problem.kind = ErrorKind.resource) (g.whole ts) := by
  rw [whole_plain]
  refine not_failsOn_bind (expr_shallow g 0 ts (by simpa using hc)) fun x _ => ?_
  split
  · exact not_failsOn_ok _ _
  · exact not_failsOn_atToken _ (by decide)

end Grammar

/-- The scanner refuses a text for a lexical cause only. -/
theorem tokenize_error_kind {source : String} {err : ParseError}
    (h : tokenize source = .error err) : err.problem.kind = .lexical :=
  (scanFrom_eq_error source.toList List.drop_zero h).2.1.span.1

end ScalarDiff.Source

namespace ScalarDiff

open Source

section Parse

variable {source : String} {names : List String}

/-- A reading not refused for nesting gives the same result under every larger limit. -/
theorem Expr.parse_limit {limit limit' : NestingLimit} (hl : limit ≤ limit')
    (h : ¬ FailsOn (·.problem.kind = ErrorKind.resource) (Expr.parse source names limit)) :
    Expr.parse source names limit' = Expr.parse source names limit := by
  unfold Expr.parse at h ⊢
  rcases htok : tokenize source with err | ts
  · rfl
  · simp only [htok] at h
    dsimp only
    rw [Grammar.whole_plain] at h ⊢
    rw [Grammar.whole_plain]
    exact bind_congr_of_not_failsOn
      (Grammar.expr_limit ⟨names, limit, source.length⟩
        (fun _ => NestingLimit.reached_of_le hl) 0 ts) (fun _ _ _ => rfl) h

/-- Every text has a threshold of the limit: below it the text is refused for nesting, and from
it on the text reads the same; unless it is refused by the scanner, and then no limit changes
its reading or refuses it for nesting. -/
theorem Expr.parse_threshold (source : String) (names : List String) :
    (∃ T : Int, ∀ m : Int,
      (FailsOn (·.problem.kind = ErrorKind.resource) (Expr.parse source names (.whole m)) ↔
        m < T) ∧
        (T ≤ m → Expr.parse source names (.whole m) = Expr.parse source names (.whole T))) ∨
    ∀ limit : NestingLimit, Expr.parse source names limit = Expr.parse source names (.whole 0) ∧
      ¬ FailsOn (·.problem.kind = ErrorKind.resource) (Expr.parse source names limit) := by
  rcases htok : tokenize source with err | ts
  · -- the scanner's refusal comes before any depth is checked
    refine .inr fun limit => ⟨by simp only [Expr.parse, htok], ?_⟩
    simp only [Expr.parse, htok, failsOn_error, tokenize_error_kind htok]
    decide
  · refine .inl (threshold_of_monotone (fun m => Expr.parse source names (.whole m))
      (fun m m' hm hf => Expr.parse_limit (NestingLimit.whole_le_whole hm) hf)
      (fun m hm => ?_) ⟨ts.length * 5 + 4, ?_⟩)
    · -- a limit up to `0` refuses the whole expression at once
      simp only [Expr.parse, htok, Grammar.whole_plain]
      rw [Grammar.expr_deep (NestingLimit.whole_reached_of_le (by omega)) ts]
      exact ⟨_, rfl, rfl⟩
    · -- a limit above the reader's measure lets the text through
      simp only [Expr.parse, htok]
      exact Grammar.whole_shallow _ ts (NestingLimit.whole_clear 0 (by omega))

end Parse

/-- The nesting limit is monotone and otherwise invisible, in the reader and in the compiler.
Under a larger limit, a reading or a compilation that was not refused for nesting has the same
result, and one that is refused for nesting was refused under the smaller limit too. So every
input has a threshold of the limit below which it is refused for nesting and from which on its
result is fixed; a text the scanner refuses has none, as no limit changes its reading. -/
theorem nesting_limit_monotone {D D' : NestingLimit} (hD : D ≤ D') :
    (∀ (source : String) (names : List String),
      (¬ FailsOn (·.problem.kind = ErrorKind.resource) (Expr.parse source names D) →
        Expr.parse source names D' = Expr.parse source names D) ∧
      (FailsOn (·.problem.kind = ErrorKind.resource) (Expr.parse source names D') →
        FailsOn (·.problem.kind = ErrorKind.resource) (Expr.parse source names D))) ∧
    (∀ (e : Expr) (n : Int),
      (¬ FailsOn (·.kind = ErrorKind.resource) (e.compile n D) →
        e.compile n D' = e.compile n D) ∧
      (FailsOn (·.kind = ErrorKind.resource) (e.compile n D') →
        FailsOn (·.kind = ErrorKind.resource) (e.compile n D))) ∧
    (∀ (source : String) (names : List String),
      (∃ T : Int, ∀ m : Int,
        (FailsOn (·.problem.kind = ErrorKind.resource) (Expr.parse source names (.whole m)) ↔
          m < T) ∧
          (T ≤ m → Expr.parse source names (.whole m) = Expr.parse source names (.whole T))) ∨
      ∀ limit : NestingLimit,
        Expr.parse source names limit = Expr.parse source names (.whole 0) ∧
        ¬ FailsOn (·.problem.kind = ErrorKind.resource) (Expr.parse source names limit)) ∧
    (∀ (e : Expr) (n : Int), ∃ T : Int, ∀ m : Int,
      (FailsOn (·.kind = ErrorKind.resource) (e.compile n (.whole m)) ↔ m < T) ∧
        (T ≤ m → e.compile n (.whole m) = e.compile n (.whole T))) := by
  refine ⟨fun source names => ⟨Expr.parse_limit hD, fun hf => ?_⟩,
    fun e n => ⟨Expr.compile_limit hD, fun hf => ?_⟩, Expr.parse_threshold,
    Expr.compile_threshold⟩
  · -- a refusal under the larger limit: the smaller limit cannot have let the text through
    by_contra hn
    rw [Expr.parse_limit hD hn] at hf
    exact hn hf
  · by_contra hn
    rw [Expr.compile_limit hD hn] at hf
    exact hn hf

/-- The text `-x^y` nests four productions deep (a sign's primary inside a factor's primary), so
the limit `4` refuses it; read under the limit `5`, it reads the same under the limit `10`. -/
theorem nesting_limit_five_ten :
    NestingLimit.whole 5 ≤ .whole 10 ∧
      (Expr.parse "-x^y" ["x", "y"] (.whole 4)).toBool = false ∧
      Expr.parse "-x^y" ["x", "y"] (.whole 10) = Expr.parse "-x^y" ["x", "y"] (.whole 5) := by
  have hle : NestingLimit.whole 5 ≤ .whole 10 := NestingLimit.whole_le_whole (by decide)
  have hread : (Expr.parse "-x^y" ["x", "y"] (.whole 5)).toBool = true := by decide +kernel
  refine ⟨hle, by decide +kernel,
    ((nesting_limit_monotone hle).1 "-x^y" ["x", "y"]).1 fun hf => ?_⟩
  obtain ⟨err, herr, -⟩ := hf
  rw [herr] at hread
  cases hread

end ScalarDiff
