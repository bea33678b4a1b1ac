import ScalarDiff.Source.Scan
import ScalarDiff.Decimal.Loose
import ScalarDiff.Proofs.Outcome

/-!
# Cutting text into tokens takes the longest token each time

The tokens of a text, said without the scanner: each token covers a non-empty stretch of the
text, whose characters are its text; the tokens follow one another without overlap, and every
character between them is a blank. A name is `[A-Za-z_][A-Za-z0-9_]*` and no name character
follows it; it is a function token exactly when it is a built-in function. A number is a numeral
`([0-9]+(\.[0-9]*)?|\.[0-9]+)([eE][+-]?[0-9]+)?` that no digit or point follows, that takes an
exponent whenever one follows its mantissa, and that carries the double its text denotes as a
real numeral (`Decimal.readReal?`).

`tokenize_longest_match` shows that the scanner returns these tokens and one end token at the
length of the text; or refuses the text at the first character that begins no token, or at a
malformed number, after exactly the tokens it returns for the text cut at that point.
-/

namespace ScalarDiff.Source

open ScalarDiff

/-! ## Tokens of a text -/

/-- An exponent `[eE][+-]?[0-9]+` with its signed value. -/
inductive Exponent : List Char → Int → Prop
  | mk {e : Char} {sign ds : List Char} (he : e = 'e' ∨ e = 'E')
      (hsign : sign = [] ∨ sign = ['+'] ∨ sign = ['-']) (hne : ds ≠ [])
      (hds : ∀ c ∈ ds, isDigit c = true) :
      Exponent (e :: sign ++ ds) (if sign = ['-'] then -(digitsValue ds : Int) else digitsValue ds)

/-- The start of an exponent, `[eE][+-]?[0-9]`, at the front of a text. -/
def ExponentAhead (cs : List Char) : Prop :=
  ∃ e sign d rest, (e = 'e' ∨ e = 'E') ∧ (sign = [] ∨ sign = ['+'] ∨ sign = ['-']) ∧
    isDigit d = true ∧ cs = e :: sign ++ d :: rest

/-- A numeral `([0-9]+(\.[0-9]*)?|\.[0-9]+)([eE][+-]?[0-9]+)?` taken apart: its whole digits,
its point if it has one with the fraction digits after it, and its exponent if it has one with
the exponent's value. -/
structure NumeralParts (whole point fraction exp : List Char) (value : Int) : Prop where
  whole_digits : ∀ c ∈ whole, isDigit c = true
  fraction_digits : ∀ c ∈ fraction, isDigit c = true
  some_digit : whole ≠ [] ∨ fraction ≠ []
  point : point = ['.'] ∨ point = [] ∧ fraction = []
  exponent : exp = [] ∧ value = 0 ∨ Exponent exp value

/-- What may follow a number: no digit and no point, and no exponent when the number has none. -/
structure NumberEnds (exp after : List Char) : Prop where
  head : ∀ c ∈ after.head?, isDigit c = false ∧ c ≠ '.'
  no_exponent : exp = [] → ¬ ExponentAhead after

/-- A name token of the text `cs`: `[A-Za-z_][A-Za-z0-9_]*`, with no name character after it. -/
structure NameAt (cs : List Char) (t : Token) : Prop where
  name : ∃ c rest, t.text.toList = c :: rest ∧ isNameStart c = true ∧
    ∀ c ∈ rest, isNamePart c = true
  ends : ∀ c ∈ (cs.drop t.stop).head?, isNamePart c = false

/-- A number token of the text `cs`: a numeral that what follows it does not extend, with the
double its text denotes as a real numeral. -/
structure NumberAt (cs : List Char) (t : Token) (v : Float) : Prop where
  numeral : ∃ whole point fraction exp e, t.text.toList = whole ++ point ++ fraction ++ exp ∧
    NumeralParts whole point fraction exp e ∧ NumberEnds exp (cs.drop t.stop)
  value : Decimal.readReal? t.text = some v

/-- The rule a token's class sets on its text and on what follows it; the end token has none. -/
inductive Fits (cs : List Char) : Token → Prop
  | number {t : Token} {v : Float} (hk : t.kind = .number v) (h : NumberAt cs t v) : Fits cs t
  | name {t : Token} (hk : t.kind = .variable) (h : NameAt cs t) (hn : t.text ∉ functionNames) :
      Fits cs t
  | function {t : Token} (hk : t.kind = .function) (h : NameAt cs t)
      (hn : t.text ∈ functionNames) : Fits cs t
  | operator {t : Token} (hk : t.kind = .operator) (h : t.text ∈ ["+", "-", "*", "/", "^"]) :
      Fits cs t
  | openParen {t : Token} (hk : t.kind = .openParen) (h : t.text = "(") : Fits cs t
  | closeParen {t : Token} (hk : t.kind = .closeParen) (h : t.text = ")") : Fits cs t
  | comma {t : Token} (hk : t.kind = .comma) (h : t.text = ",") : Fits cs t

/-- A token at its place in the text `cs`: a non-empty span inside the text, whose characters
are the token's text, and the rule of its class. -/
structure Lexeme (cs : List Char) (t : Token) : Prop where
  nonempty : t.pos < t.stop
  inside : t.stop ≤ cs.length
  text : t.text.toList = (cs.drop t.pos).take (t.stop - t.pos)
  fits : Fits cs t

/-- `ts` are the tokens of the text `cs` from position `lo` to position `hi`: each at its place
and inside the stretch, in order without overlap, and every position of the stretch that no
token covers is a blank. -/
structure Tokenized (cs : List Char) (lo hi : Nat) (ts : List Token) : Prop where
  le : lo ≤ hi
  lexemes : ∀ t ∈ ts, Lexeme cs t
  ordered : ts.Pairwise fun a b => a.stop ≤ b.pos
  after_lo : ∀ t ∈ ts, lo ≤ t.pos
  before_hi : ∀ t ∈ ts, t.stop ≤ hi
  blanks : ∀ i, lo ≤ i → i < hi → (∀ t ∈ ts, i < t.pos ∨ t.stop ≤ i) →
    ∀ c ∈ cs[i]?, isBlank c = true

/-- The one-character tokens and their classes. -/
inductive SingleToken : Char → TokenKind → Prop
  | operator {c : Char} (h : c ∈ ['+', '-', '*', '/', '^']) : SingleToken c .operator
  | openParen : SingleToken '(' .openParen
  | closeParen : SingleToken ')' .closeParen
  | comma : SingleToken ',' .comma

/-- The characters that begin a token. -/
def beginsToken (c : Char) : Bool :=
  isDigit c || c = '.' || isNameStart c || c = '+' || c = '-' || c = '*' || c = '/' ||
    c = '^' || c = '(' || c = ')' || c = ','

/-- A malformed number and what follows it: a point with no digit on either side, or a numeral
followed by a point, with the whole run of points and digits after it. -/
inductive Malformed : List Char → List Char → Prop
  | lonePoint {after : List Char} (h : ∀ c ∈ after.head?, isDigit c = false) :
      Malformed ['.'] after
  | extraPoint {whole point fraction exp run after : List Char} {e : Int}
      (hparts : NumeralParts whole point fraction exp e)
      (hrun : ∀ c ∈ run, c = '.' ∨ isDigit c = true)
      (hafter : ∀ c ∈ after.head?, c ≠ '.' ∧ isDigit c = false) :
      Malformed (whole ++ point ++ fraction ++ exp ++ '.' :: run) after

/-- Where a text is refused: at a character that is no blank and begins no token, or at a
malformed number. -/
inductive Refusal (cs : List Char) : ParseError → Prop
  | stray {c : Char} {i : Nat} (hc : cs[i]? = some c) (hblank : isBlank c = false)
      (hbegins : beginsToken c = false) :
      Refusal cs ⟨.strayCharacter c i, i, i + 1, some (String.singleton c)⟩
  | malformed {i : Nat} {text : List Char} (htext : (cs.drop i).take text.length = text)
      (hm : Malformed text (cs.drop (i + text.length))) :
      Refusal cs ⟨.badNumber (String.ofList text) i, i, i + text.length,
        some (String.ofList text)⟩

/-! ## Runs of characters -/

section Runs

variable {p : Char → Bool}

/-- A run of characters with `p`, followed by one without, is what `takeWhile p` takes. -/
theorem takeWhile_run {run rest : List Char} (hrun : ∀ c ∈ run, p c = true)
    (hrest : ∀ c ∈ rest.head?, p c = false) : (run ++ rest).takeWhile p = run := by
  rw [List.takeWhile_append_of_pos hrun]
  cases rest with
  | nil => simp
  | cons c r => simp [hrest c rfl]

theorem head_dropWhile (l : List Char) : ∀ c ∈ (l.dropWhile p).head?, p c = false := by
  intro c hc
  have h := List.head?_dropWhile_not p l
  rw [Option.mem_def.1 hc] at h
  exact h

theorem head_of_takeWhile {l : List Char} (h : ¬ (l.takeWhile p).isEmpty = true) :
    ∃ d r, l = d :: r ∧ p d = true := by
  rcases l with _ | ⟨d, r⟩
  · simp at h
  · cases hd : p d
    · simp [hd] at h
    · exact ⟨d, r, rfl, hd⟩

theorem drop_length_takeWhile (l : List Char) : l.drop (l.takeWhile p).length = l.dropWhile p := by
  induction l with
  | nil => rfl
  | cons c r ih =>
    by_cases hc : p c = true
    · simp [List.takeWhile_cons_of_pos hc, List.dropWhile_cons_of_pos hc, ih]
    · simp [List.takeWhile_cons_of_neg hc, List.dropWhile_cons_of_neg hc]

theorem take_length_takeWhile (l : List Char) : l.take (l.takeWhile p).length = l.takeWhile p := by
  induction l with
  | nil => rfl
  | cons c r ih =>
    by_cases hc : p c = true
    · simp [List.takeWhile_cons_of_pos hc, ih]
    · simp [List.takeWhile_cons_of_neg hc]

/-- The first character of a prefix is the first character of the whole, if it has one. -/
theorem head_take {l : List Char} {k : Nat} {c : Char} (h : c ∈ (l.take k).head?) :
    c ∈ l.head? := by
  rw [List.head?_take] at h
  split at h
  · cases h
  · exact h

end Runs

/-! ## Exponents -/

theorem exponentPart_exponent {x rest : List Char} {v : Int} (hx : Exponent x v)
    (hrest : ∀ c ∈ rest.head?, isDigit c = false) : exponentPart (x ++ rest) = some (x, v) := by
  obtain ⟨he, hsign, hne, hds⟩ := hx
  rename_i e sign ds
  obtain ⟨d, ds', rfl⟩ := List.exists_cons_of_ne_nil hne
  have hd : isDigit d = true := hds d (List.mem_cons_self ..)
  have hrun : (d :: (ds' ++ rest)).takeWhile isDigit = d :: ds' := takeWhile_run hds hrest
  rcases hsign with rfl | rfl | rfl
  · -- no sign: the first digit is no sign either
    have hsign : ¬ (d = '+' ∨ d = '-') := by
      rintro (rfl | rfl) <;> cases hd
    simp [exponentPart, he, hsign, hrun]
  · simp [exponentPart, he, hrun]
  · simp [exponentPart, he, hrun]

theorem exponentPart_ahead {cs : List Char} {r : List Char × Int} (h : exponentPart cs = some r) :
    ExponentAhead cs := by
  unfold exponentPart at h
  rcases cs with _ | ⟨e, rest⟩
  · cases h
  · dsimp only at h
    by_cases he : e = 'e' ∨ e = 'E'
    · rw [if_pos he] at h
      rcases rest with _ | ⟨s, more⟩
      · simp at h
      · dsimp only at h
        by_cases hs : s = '+' ∨ s = '-'
        · simp only [if_pos hs] at h
          by_cases hds : (more.takeWhile isDigit).isEmpty = true
          · simp [hds] at h
          · obtain ⟨d, r', rfl, hd⟩ := head_of_takeWhile hds
            exact ⟨e, [s], d, r', he, by rcases hs with rfl | rfl <;> simp, hd, rfl⟩
        · simp only [if_neg hs] at h
          by_cases hds : ((s :: more).takeWhile isDigit).isEmpty = true
          · simp [hds] at h
          · obtain ⟨d, r', heq, hd⟩ := head_of_takeWhile hds
            exact ⟨e, [], d, r', he, .inl rfl, hd, by simp [heq]⟩
    · rw [if_neg he] at h
      cases h

/-- An exponent that starts a text extends over the whole run of digits after it. -/
theorem ExponentAhead.split {cs : List Char} (h : ExponentAhead cs) :
    ∃ x v rest, Exponent x v ∧ cs = x ++ rest ∧ ∀ c ∈ rest.head?, isDigit c = false := by
  obtain ⟨e, sign, d, rest, he, hsign, hd, rfl⟩ := h
  have hds : ∀ c ∈ d :: rest.takeWhile isDigit, isDigit c = true := by
    intro c hc
    rcases List.mem_cons.1 hc with rfl | hc
    · exact hd
    · exact List.all_eq_true.1 List.all_takeWhile c hc
  refine ⟨_, _, rest.dropWhile isDigit, .mk he hsign (List.cons_ne_nil _ _) hds, ?_,
    head_dropWhile rest⟩
  simp

theorem ExponentAhead.take {cs : List Char} {k : Nat} (h : ExponentAhead (cs.take k)) :
    ExponentAhead cs := by
  obtain ⟨e, sign, d, rest, he, hsign, hd, heq⟩ := h
  refine ⟨e, sign, d, rest ++ cs.drop k, he, hsign, hd, ?_⟩
  have hcs := List.take_append_drop k cs
  rw [heq] at hcs
  simpa using hcs.symm

theorem exponentPart_eq_none {cs : List Char} : exponentPart cs = none ↔ ¬ ExponentAhead cs := by
  constructor
  · intro h hahead
    obtain ⟨x, v, rest, hx, rfl, hrest⟩ := hahead.split
    rw [exponentPart_exponent hx hrest] at h
    cases h
  · intro h
    cases hpart : exponentPart cs with
    | none => rfl
    | some r => exact absurd (exponentPart_ahead hpart) h

theorem exponentPart_eq_some {cs x : List Char} {v : Int} (h : exponentPart cs = some (x, v)) :
    Exponent x v ∧ ∃ rest, cs = x ++ rest ∧ ∀ c ∈ rest.head?, isDigit c = false := by
  obtain ⟨x', v', rest, hx', rfl, hrest⟩ := (exponentPart_ahead h).split
  rw [exponentPart_exponent hx' hrest] at h
  cases h
  exact ⟨hx', rest, rfl, hrest⟩

theorem Exponent.ne_nil {x : List Char} {v : Int} (h : Exponent x v) : x ≠ [] := by
  cases h
  exact List.cons_ne_nil _ _

theorem Exponent.head {x rest : List Char} {v : Int} (h : Exponent x v) :
    ∀ c ∈ (x ++ rest).head?, isDigit c = false ∧ c ≠ '.' := by
  obtain ⟨he, -, -, -⟩ := h
  intro c hc
  simp only [List.cons_append, List.head?_cons, Option.mem_def, Option.some.injEq] at hc
  subst hc
  rcases he with rfl | rfl <;> decide

/-! ## Numbers

A number's text is cut where its digits, its point and its fraction digits end
(`MantissaSplit`); the scanner's result is then fixed by the exponent after the cut and by
whether a point follows (`scanNumber_split`). -/

/-- A text cut after the digits, the point and the fraction digits that a number starts with. -/
structure MantissaSplit (whole point fraction after : List Char) : Prop where
  whole_digits : ∀ c ∈ whole, isDigit c = true
  fraction_digits : ∀ c ∈ fraction, isDigit c = true
  after_head : ∀ c ∈ after.head?, isDigit c = false
  point : point = ['.'] ∨ point = [] ∧ fraction = [] ∧ ∀ c ∈ after.head?, c ≠ '.'

theorem MantissaSplit.exists (cs : List Char) :
    ∃ w p f a, cs = w ++ p ++ f ++ a ∧ MantissaSplit w p f a := by
  have hcs := (@List.takeWhile_append_dropWhile _ isDigit cs).symm
  have hw : ∀ c ∈ cs.takeWhile isDigit, isDigit c = true :=
    fun c hc => List.all_eq_true.1 List.all_takeWhile c hc
  have hstop := head_dropWhile (p := isDigit) cs
  rcases hD : cs.dropWhile isDigit with _ | ⟨c, R⟩
  · rw [hD] at hcs
    exact ⟨_, [], [], [], by simpa using hcs, hw, by simp, by simp,
      .inr ⟨rfl, rfl, by simp⟩⟩
  · rw [hD] at hcs hstop
    by_cases hc : c = '.'
    · -- a point: the fraction digits run on after it
      subst hc
      refine ⟨_, ['.'], R.takeWhile isDigit, R.dropWhile isDigit, by simpa using hcs, hw,
        fun c hc => List.all_eq_true.1 List.all_takeWhile c hc, head_dropWhile R, .inl rfl⟩
    · exact ⟨_, [], [], c :: R, by simpa using hcs, hw, by simp, hstop,
        .inr ⟨rfl, rfl, fun c' hc' => by cases hc'; exact hc⟩⟩

theorem MantissaSplit.takeWhile {w p f a : List Char} (hs : MantissaSplit w p f a) :
    (w ++ p ++ f ++ a).takeWhile isDigit = w := by
  rw [List.append_assoc, List.append_assoc]
  apply takeWhile_run hs.whole_digits
  rcases hs.point with rfl | ⟨rfl, rfl, -⟩
  · intro c hc
    simp only [List.cons_append, List.nil_append, List.head?_cons, Option.mem_def,
      Option.some.injEq] at hc
    subst hc
    rfl
  · simpa using hs.after_head

theorem MantissaSplit.fraction {w p f a : List Char} (hs : MantissaSplit w p f a) :
    (f ++ a).takeWhile isDigit = f := takeWhile_run hs.fraction_digits hs.after_head

/-- The scanner on a text cut after a mantissa with a digit: the exponent after the cut is taken
if there is one, and a point after that makes the number malformed. -/
theorem scanNumber_split {w p f a x : List Char} {v : Int} (hs : MantissaSplit w p f a)
    (hsome : w ≠ [] ∨ f ≠ []) (hx : (exponentPart a).getD ([], 0) = (x, v)) :
    scanNumber (w ++ p ++ f ++ a) =
      if (a.drop x.length).head? = some '.' then
        .error (w ++ p ++ f ++ x ++ '.' ::
          (a.drop x.length).tail.takeWhile fun c => c = '.' || isDigit c)
      else .ok ⟨w ++ p ++ f ++ x, w, f, v⟩ := by
  have hne : ¬ (w = [] ∧ f = []) := by
    rintro ⟨rfl, rfl⟩
    simp at hsome
  -- split on what follows the exponent first, then on whether the mantissa has a point
  rcases hL : a.drop x.length with _ | ⟨c, r⟩ <;> unfold scanNumber <;> simp only [hs.takeWhile]
  all_goals rcases hs.point with rfl | ⟨rfl, rfl, hdot⟩
  · simp [hs.fraction, hx, hne, hL]
  · simp only [ne_eq, not_true_eq_false, or_false] at hsome
    rcases a with _ | ⟨c, r⟩
    · simp only [exponentPart, Option.getD_none, Prod.mk.injEq] at hx
      obtain ⟨rfl, rfl⟩ := hx
      simp [hsome, exponentPart]
    · simp [hx, hsome, hdot c rfl, hL]
  · by_cases hc : c = '.'
    · subst hc
      simp [hs.fraction, hx, hne, hL]
    · simp [hs.fraction, hx, hne, hL, hc]
  · simp only [ne_eq, not_true_eq_false, or_false] at hsome
    rcases a with _ | ⟨c', r'⟩
    · simp only [exponentPart, Option.getD_none, Prod.mk.injEq] at hx
      obtain ⟨rfl, rfl⟩ := hx
      simp at hL
    · by_cases hc : c = '.'
      · subst hc
        simp [hx, hsome, hdot c' rfl, hL]
      · simp [hx, hsome, hdot c' rfl, hL, hc]

/-- A text whose mantissa has no digit is refused with the mantissa as the malformed number. -/
theorem scanNumber_split_empty {p a : List Char} (hs : MantissaSplit [] p [] a) :
    scanNumber (p ++ a) = .error p := by
  have hw : a.takeWhile isDigit = [] := hs.fraction
  unfold scanNumber
  rcases hs.point with rfl | ⟨rfl, -, hdot⟩
  · have hpoint : isDigit '.' = false := by decide
    simp [hw, hpoint]
  · rcases a with _ | ⟨c, r⟩
    · rfl
    · simp [hw, hdot c rfl]

/-- A numeral that what follows does not extend is cut after its mantissa, and its exponent is
the exponent after the cut. -/
theorem NumeralParts.split {w p f x rest : List Char} {v : Int}
    (hparts : NumeralParts w p f x v) (hends : NumberEnds x rest) :
    MantissaSplit w p f (x ++ rest) ∧ (exponentPart (x ++ rest)).getD ([], 0) = (x, v) := by
  have hhead : ∀ c ∈ (x ++ rest).head?, isDigit c = false ∧ c ≠ '.' := by
    rcases hparts.exponent with ⟨rfl, -⟩ | hx
    · simpa using hends.head
    · exact hx.head
  refine ⟨⟨hparts.whole_digits, hparts.fraction_digits, fun c hc => (hhead c hc).1, ?_⟩, ?_⟩
  · rcases hparts.point with rfl | ⟨rfl, rfl⟩
    · exact .inl rfl
    · exact .inr ⟨rfl, rfl, fun c hc => (hhead c hc).2⟩
  · rcases hparts.exponent with ⟨rfl, rfl⟩ | hx
    · simp [exponentPart_eq_none.2 (hends.no_exponent rfl)]
    · simp [exponentPart_exponent hx fun c hc => (hends.head c hc).1]

/-- The scanner reads a number exactly when the text starts with a numeral that what follows
does not extend: then it reads that numeral, with its parts. -/
theorem scanNumber_eq_ok {cs : List Char} {n : NumberText} :
    scanNumber cs = .ok n ↔ ∃ p x rest, cs = n.text ++ rest ∧
      n.text = n.whole ++ p ++ n.fraction ++ x ∧
      NumeralParts n.whole p n.fraction x n.exponent ∧ NumberEnds x rest := by
  constructor
  · intro h
    obtain ⟨w, p, f, a, rfl, hs⟩ := MantissaSplit.exists cs
    have hsome : w ≠ [] ∨ f ≠ [] := by
      by_cases hw : w = []
      · subst hw
        refine .inr fun hf => ?_
        subst hf
        rw [List.nil_append, List.append_nil, scanNumber_split_empty hs] at h
        cases h
      · exact .inl hw
    have hpoint : p = ['.'] ∨ p = [] ∧ f = [] := hs.point.imp id fun h => ⟨h.1, h.2.1⟩
    rcases hx : exponentPart a with _ | ⟨x, v⟩
    · -- no exponent: the number ends with its mantissa
      rw [@scanNumber_split w p f a [] 0 hs hsome (by rw [hx]; rfl)] at h
      simp only [List.length_nil, List.drop_zero, List.append_nil] at h
      split at h
      · cases h
      · rename_i hdot
        cases h
        refine ⟨p, [], a, by simp, by simp, ⟨hs.whole_digits, hs.fraction_digits, hsome, hpoint,
          .inl ⟨rfl, rfl⟩⟩, ⟨fun c hc => ⟨hs.after_head c hc, ?_⟩,
          fun _ => exponentPart_eq_none.1 hx⟩⟩
        rintro rfl
        exact hdot (Option.mem_def.1 hc)
    · obtain ⟨hxv, rest, rfl, hrest⟩ := exponentPart_eq_some hx
      rw [@scanNumber_split w p f (x ++ rest) x v hs hsome (by rw [hx]; rfl)] at h
      simp only [List.drop_left] at h
      split at h
      · cases h
      · rename_i hdot
        cases h
        refine ⟨p, x, rest, by simp, rfl, ⟨hs.whole_digits, hs.fraction_digits, hsome, hpoint,
          .inr hxv⟩, ⟨fun c hc => ⟨hrest c hc, ?_⟩, fun hnil => absurd hnil hxv.ne_nil⟩⟩
        rintro rfl
        exact hdot (Option.mem_def.1 hc)
  · rintro ⟨p, x, rest, rfl, htext, hparts, hends⟩
    obtain ⟨hs, hx⟩ := hparts.split hends
    have hdot : ¬ (rest.head? = some '.') := fun h => (hends.head '.' h).2 rfl
    obtain ⟨text, w, f, v⟩ := n
    dsimp only at htext hs hx hparts ⊢
    subst htext
    rw [List.append_assoc, scanNumber_split hs hparts.some_digit hx, List.drop_left, if_neg hdot]

/-- Cutting the text anywhere after a number leaves the number as the scanner reads it. -/
theorem scanNumber_take {cs : List Char} {n : NumberText} (h : scanNumber cs = .ok n) {k : Nat}
    (hk : n.text.length ≤ k) : scanNumber (cs.take k) = .ok n := by
  obtain ⟨p, x, rest, rfl, htext, hparts, hends⟩ := scanNumber_eq_ok.1 h
  refine scanNumber_eq_ok.2 ⟨p, x, rest.take (k - n.text.length), ?_, htext, hparts,
    ⟨fun c hc => hends.head c (head_take hc), fun hx ha => hends.no_exponent hx ha.take⟩⟩
  rw [List.take_append, List.take_of_length_le hk]

/-- A number the scanner refuses is malformed: a point with no digit on either side, or a numeral
followed by a point, taking the run of points and digits after it. -/
theorem scanNumber_eq_error {cs text : List Char}
    (hstart : ∃ c ∈ cs.head?, isDigit c = true ∨ c = '.')
    (h : scanNumber cs = .error text) :
    ∃ after, cs = text ++ after ∧ Malformed text after := by
  obtain ⟨w, p, f, a, rfl, hs⟩ := MantissaSplit.exists cs
  by_cases hwf : w = [] ∧ f = []
  · -- no digit in the mantissa: it is a lone point
    obtain ⟨rfl, rfl⟩ := hwf
    simp only [List.nil_append, List.append_nil] at h hstart ⊢
    rw [scanNumber_split_empty hs] at h
    cases h
    rcases hs.point with rfl | ⟨rfl, -, hdot⟩
    · exact ⟨a, rfl, .lonePoint hs.after_head⟩
    · obtain ⟨c, hc, hd⟩ := hstart
      rcases a with _ | ⟨c', r⟩
      · cases hc
      · cases hc
        rcases hd with hd | hd
        · rw [hs.after_head c rfl] at hd
          cases hd
        · exact absurd hd (hdot c rfl)
  · have hsome : w ≠ [] ∨ f ≠ [] := by
      by_cases hw : w = []
      · exact .inr fun hf => hwf ⟨hw, hf⟩
      · exact .inl hw
    have hpoint : p = ['.'] ∨ p = [] ∧ f = [] := hs.point.imp id fun h => ⟨h.1, h.2.1⟩
    -- the exponent after the mantissa, and the rest of the text after it
    obtain ⟨x, v, rest, rfl, hexp, hx⟩ : ∃ x v rest, a = x ++ rest ∧
        (x = [] ∧ v = 0 ∨ Exponent x v) ∧ (exponentPart a).getD ([], 0) = (x, v) := by
      rcases hx : exponentPart a with _ | ⟨x, v⟩
      · exact ⟨[], 0, a, rfl, .inl ⟨rfl, rfl⟩, rfl⟩
      · obtain ⟨hxv, rest, rfl, -⟩ := exponentPart_eq_some hx
        exact ⟨x, v, rest, rfl, .inr hxv, rfl⟩
    rw [scanNumber_split hs hsome hx, List.drop_left] at h
    split at h
    · rename_i hdot
      obtain ⟨r, rfl⟩ : ∃ r, rest = '.' :: r := by
        rcases rest with _ | ⟨c, r⟩
        · cases hdot
        · cases hdot
          exact ⟨r, rfl⟩
      cases h
      refine ⟨r.dropWhile fun c => c = '.' || isDigit c, by simp, .extraPoint
        ⟨hs.whole_digits, hs.fraction_digits, hsome, hpoint, hexp⟩ (fun c hc => ?_) ?_⟩
      · simpa using List.all_eq_true.1 List.all_takeWhile c hc
      · intro c hc
        simpa using head_dropWhile r c hc
    · cases h

/-! ## The value of a number

A numeral is written in ASCII digits, a point, `e` or `E` and a sign only, so reading it as a real
numeral in free text changes nothing of it, and the real reader takes it apart as the scanner
does. -/

theorem isDigit_toNat {c : Char} (h : isDigit c = true) : 48 ≤ c.toNat ∧ c.toNat ≤ 57 := by
  simp only [isDigit, Bool.and_eq_true, decide_eq_true_eq] at h
  exact h

theorem underscores_of_plain {cs : List Char} (h : ∀ c ∈ cs, c ≠ '_') :
    Decimal.underscoresBetweenDigits cs = true := by
  unfold Decimal.underscoresBetweenDigits
  dsimp only
  -- the fold keeps `ok` set and never meets an underscore
  generalize hb : ((' ', true) : Char × Bool) = b
  have hI : b.2 = true ∧ b.1 ≠ '_' := by
    subst hb
    exact ⟨rfl, by decide⟩
  clear hb
  induction cs generalizing b with
  | nil =>
    obtain ⟨prev, ok⟩ := b
    obtain ⟨rfl, hprev⟩ := hI
    simpa using hprev
  | cons c r ih =>
    obtain ⟨prev, ok⟩ := b
    obtain ⟨rfl, hprev⟩ := hI
    have hc := h c (List.mem_cons_self ..)
    rw [List.foldl_cons]
    apply ih (fun c' hc' => h c' (List.mem_cons_of_mem c hc'))
    simp [hc, hprev]

theorem dropWhile_of_all {p : Char → Bool} {l : List Char} (h : ∀ c ∈ l, p c = false) :
    l.dropWhile p = l := by
  cases l with
  | nil => rfl
  | cons c r => simp [h c (List.mem_cons_self ..)]

theorem cleaned_of_plain {cs : List Char}
    (h : ∀ c ∈ cs, c.toNat < 128 ∧ c ≠ '_' ∧ Decimal.isAsciiSpace c = false) :
    Decimal.cleaned? (String.ofList cs) = some cs := by
  have hascii : Decimal.asciiForm? (String.ofList cs) = some cs := by
    unfold Decimal.asciiForm?
    rw [String.toList_ofList]
    induction cs with
    | nil => rfl
    | cons c r ih =>
      have hc := (h c (List.mem_cons_self ..)).1
      simp [hc, ih fun c' hc' => h c' (List.mem_cons_of_mem c hc')]
  have hspace : ∀ c ∈ cs, Decimal.isAsciiSpace c = false := fun c hc => (h c hc).2.2
  have hspace' : ∀ c ∈ cs.reverse, Decimal.isAsciiSpace c = false :=
    fun c hc => hspace c (List.mem_reverse.1 hc)
  unfold Decimal.cleaned?
  simp only [hascii, Option.bind_eq_bind, Option.bind_some,
    underscores_of_plain fun c hc => (h c hc).2.1, if_true, dropWhile_of_all hspace,
    dropWhile_of_all hspace', List.reverse_reverse]
  rw [List.filter_eq_self.2 fun c hc => by simpa using (h c hc).2.1]

theorem splitSign_digits {ds : List Char} (hne : ds ≠ []) (hds : ∀ c ∈ ds, isDigit c = true) :
    Decimal.splitSign ds = (false, ds) := by
  obtain ⟨d, r, rfl⟩ := List.exists_cons_of_ne_nil hne
  have hd := hds d (List.mem_cons_self ..)
  have hminus : d ≠ '-' := by rintro rfl; cases hd
  have hplus : d ≠ '+' := by rintro rfl; cases hd
  simp [Decimal.splitSign, hminus, hplus]

theorem unsignedDecimal_numeral {w p f x : List Char} {v : Int} (hparts : NumeralParts w p f x v) :
    Decimal.unsignedDecimal? (w ++ p ++ f ++ x) = some (digitsValue (w ++ f), v - f.length) := by
  have hends : NumberEnds x [] := ⟨by simp, fun _ ⟨_, _, _, _, _, _, _, h⟩ => by cases h⟩
  obtain ⟨hs, -⟩ := hparts.split hends
  rw [List.append_nil] at hs
  have hw := hs.takeWhile
  have hf := hs.fraction
  have hsome := hparts.some_digit
  have hsome' : w = [] → f ≠ [] := fun hw' => by
    rcases hsome with h | h
    · exact absurd hw' h
    · exact h
  -- the reader's digits and digit values are the scanner's
  have hdigit : Decimal.isAsciiDigit = isDigit := rfl
  have hvalue : Decimal.asciiDigitsValue = digitsValue := rfl
  unfold Decimal.unsignedDecimal?
  rw [hdigit, hvalue]
  rcases hparts.exponent with ⟨rfl, rfl⟩ | hx
  · rcases hparts.point with rfl | ⟨rfl, rfl⟩
    · simp only [List.append_nil, List.append_assoc, List.singleton_append] at hw hf
      simp [hw, hf]
      exact hsome'
    · simp only [List.append_nil] at hw
      simp only [ne_eq, not_true_eq_false, or_false] at hsome
      simp [hw, hsome]
  · obtain ⟨he, hsign, hds_ne, hds⟩ := hx
    rename_i e sign ds
    have hsplit : Decimal.splitSign (sign ++ ds) = (decide (sign = ['-']), ds) := by
      rcases hsign with rfl | rfl | rfl
      · exact splitSign_digits hds_ne hds
      · rfl
      · rfl
    have hE : (e = 'e' || e = 'E') = true := by simpa using he
    have hdot : e ≠ '.' := by rcases he with rfl | rfl <;> decide
    rcases hparts.point with rfl | ⟨rfl, rfl⟩
    · simp only [List.append_assoc, List.cons_append, List.nil_append] at hw hf
      simp [hw, hf, hsplit, hE, hds_ne]
      exact ⟨hsome', hds⟩
    · simp only [List.append_nil, List.cons_append, List.nil_append] at hw hf
      simp only [ne_eq, not_true_eq_false, or_false] at hsome
      simp [hw, hsome, hsplit, hE, hds_ne, hdot]
      exact hds

theorem NumeralParts.head {w p f x : List Char} {v : Int} (hparts : NumeralParts w p f x v) :
    ∃ d r, w ++ p ++ f ++ x = d :: r ∧ 46 ≤ d.toNat ∧ d.toNat ≤ 57 := by
  rcases w with _ | ⟨d, w'⟩
  · rcases hparts.point with rfl | ⟨rfl, rfl⟩
    · exact ⟨'.', f ++ x, rfl, by decide, by decide⟩
    · rcases hparts.some_digit with h | h <;> contradiction
  · obtain ⟨h1, h2⟩ := isDigit_toNat (hparts.whole_digits d (List.mem_cons_self ..))
    exact ⟨d, _, rfl, by omega, h2⟩

theorem NumeralParts.plain {w p f x : List Char} {v : Int} (hparts : NumeralParts w p f x v) :
    ∀ c ∈ w ++ p ++ f ++ x, c.toNat < 128 ∧ c ≠ '_' ∧ Decimal.isAsciiSpace c = false := by
  have hdigit : ∀ c, isDigit c = true →
      c.toNat < 128 ∧ c ≠ '_' ∧ Decimal.isAsciiSpace c = false := by
    intro c hc
    obtain ⟨h1, h2⟩ := isDigit_toNat hc
    have hspace : c ≠ ' ' := by rintro rfl; simp at h1
    have hcontrol : ¬ (9 ≤ c.toNat ∧ c.toNat ≤ 13) := by omega
    refine ⟨by omega, by rintro rfl; simp at h2, ?_⟩
    simp [Decimal.isAsciiSpace, hspace]
    omega
  intro c hc
  simp only [List.mem_append] at hc
  rcases hc with ((hc | hc) | hc) | hc
  · exact hdigit c (hparts.whole_digits c hc)
  · rcases hparts.point with rfl | ⟨rfl, -⟩
    · rw [List.mem_singleton.1 hc]
      decide
    · cases hc
  · exact hdigit c (hparts.fraction_digits c hc)
  · rcases hparts.exponent with ⟨rfl, -⟩ | ⟨he, hsign, -, hds⟩
    · cases hc
    · rcases List.mem_cons.1 hc with rfl | hc
      · rcases he with rfl | rfl <;> decide
      · rcases List.mem_append.1 hc with hc | hc
        · rcases hsign with rfl | rfl | rfl <;> simp at hc <;> (subst hc; decide)
        · exact hdigit c (hds c hc)

theorem readReal_numeral {w p f x : List Char} {v : Int} (hparts : NumeralParts w p f x v) :
    Decimal.readReal? (String.ofList (w ++ p ++ f ++ x)) =
      some (Decimal.toFloat false (digitsValue (w ++ f)) (v - f.length)) := by
  obtain ⟨d, r, htext, hd⟩ := hparts.head
  have hclean := cleaned_of_plain hparts.plain
  -- the text starts with a digit or a point: no sign, and none of the words
  have hsign : Decimal.splitSign (d :: r) = (false, d :: r) := by
    have hminus : d ≠ '-' := by rintro rfl; simp at hd
    have hplus : d ≠ '+' := by rintro rfl; simp at hd
    simp [Decimal.splitSign, hminus, hplus]
  have hlow : (Decimal.lowerAscii (d :: r)).head? = some d := by
    have hupper : ¬ ('A' ≤ d ∧ d ≤ 'Z') := by
      rintro ⟨h, -⟩
      exact absurd (Nat.le_trans h hd.2) (by decide)
    simp [Decimal.lowerAscii, hupper]
  have hword : ∀ a : Char, 57 < a.toNat → ∀ rest : List Char,
      Decimal.lowerAscii (d :: r) ≠ a :: rest := by
    intro a ha rest heq
    rw [heq] at hlow
    cases hlow
    omega
  have hinf : Decimal.lowerAscii (d :: r) ≠ "inf".toList := by
    rw [show "inf".toList = ['i', 'n', 'f'] from rfl]
    exact hword 'i' (by decide) _
  have hinfinity : Decimal.lowerAscii (d :: r) ≠ "infinity".toList := by
    rw [show "infinity".toList = ['i', 'n', 'f', 'i', 'n', 'i', 't', 'y'] from rfl]
    exact hword 'i' (by decide) _
  have hnan : Decimal.lowerAscii (d :: r) ≠ "nan".toList := by
    rw [show "nan".toList = ['n', 'a', 'n'] from rfl]
    exact hword 'n' (by decide) _
  rw [← htext] at hsign hinf hinfinity hnan
  unfold Decimal.readReal?
  simp only [hclean, Option.bind_eq_bind, Option.bind_some, hsign, hinf, hinfinity, hnan,
    decide_false, Bool.or_false, Bool.false_eq_true, if_false, unsignedDecimal_numeral hparts]


/-! ## One step of the scanner

What the character at the front does: a blank is skipped, a digit or a point starts a number, a
letter or an underscore a name, one of `+ - * / ^ ( ) ,` is a token by itself, and any other
character is refused (`front_cases`). -/

theorem isBlank_of_toNat {c : Char} (h : 33 ≤ c.toNat) : isBlank c = false := by
  simp only [isBlank, Bool.or_eq_false_iff, decide_eq_false_iff_not]
  refine ⟨⟨⟨⟨⟨?_, ?_⟩, ?_⟩, ?_⟩, ?_⟩, ?_⟩ <;> (rintro rfl; simp at h)

theorem isNameStart_toNat {c : Char} (h : isNameStart c = true) :
    65 ≤ c.toNat ∧ c.toNat ≤ 122 := by
  simp only [isNameStart, Bool.or_eq_true, decide_eq_true_eq, Bool.and_eq_true] at h
  rcases h with (rfl | ⟨h1, h2⟩) | ⟨h1, h2⟩
  · decide
  · exact ⟨by have : 'a'.toNat ≤ c.toNat := h1; simp at this; omega, h2⟩
  · exact ⟨h1, by have : c.toNat ≤ 'Z'.toNat := h2; simp at this; omega⟩

theorem scanFrom_blank {c : Char} {rest : List Char} {pos : Nat} (hc : isBlank c = true) :
    scanFrom (c :: rest) pos = scanFrom rest (pos + 1) := by
  rw [scanFrom]
  simp [hc]

theorem scanFrom_number {c : Char} {rest : List Char} {pos : Nat} {n : NumberText}
    (hc : isDigit c = true ∨ c = '.') (hn : scanNumber (c :: rest) = .ok n) :
    scanFrom (c :: rest) pos =
      (⟨.number n.value, String.ofList n.text, pos, pos + n.text.length⟩ :: ·) <$>
        scanFrom (rest.drop (n.text.length - 1)) (pos + n.text.length) := by
  have hb : isBlank c = false := by
    apply isBlank_of_toNat
    rcases hc with hc | rfl
    · have := isDigit_toNat hc
      omega
    · decide
  rw [scanFrom]
  simp [hb, hc, hn]

theorem scanFrom_badNumber {c : Char} {rest : List Char} {pos : Nat} {text : List Char}
    (hc : isDigit c = true ∨ c = '.') (hn : scanNumber (c :: rest) = .error text) :
    scanFrom (c :: rest) pos =
      .error ⟨.badNumber (String.ofList text) pos, pos, pos + text.length,
        some (String.ofList text)⟩ := by
  have hb : isBlank c = false := by
    apply isBlank_of_toNat
    rcases hc with hc | rfl
    · have := isDigit_toNat hc
      omega
    · decide
  rw [scanFrom]
  simp [hb, hc, hn]

theorem scanFrom_name {c : Char} {rest : List Char} {pos : Nat} (hc : isNameStart c = true) :
    scanFrom (c :: rest) pos =
      (⟨if functionNames.contains (String.ofList (c :: rest.takeWhile isNamePart)) then .function
          else .variable, String.ofList (c :: rest.takeWhile isNamePart), pos,
          pos + ((rest.takeWhile isNamePart).length + 1)⟩ :: ·) <$>
        scanFrom (rest.drop (rest.takeWhile isNamePart).length)
          (pos + ((rest.takeWhile isNamePart).length + 1)) := by
  have hrange := isNameStart_toNat hc
  have hb : isBlank c = false := isBlank_of_toNat (by omega)
  have hd : isDigit c = false := by
    simp only [isDigit, Bool.and_eq_false_iff, decide_eq_false_iff_not]
    right
    intro h
    have : c.toNat ≤ '9'.toNat := h
    simp at this
    omega
  have hdot : c ≠ '.' := by rintro rfl; simp at hrange
  rw [scanFrom]
  simp [hb, hd, hdot, hc]

theorem scanFrom_single {c : Char} {rest : List Char} {pos : Nat} {kind : TokenKind}
    (h : SingleToken c kind) :
    scanFrom (c :: rest) pos =
      (⟨kind, String.singleton c, pos, pos + 1⟩ :: ·) <$> scanFrom rest (pos + 1) := by
  rw [scanFrom]
  cases h with
  | operator h =>
    simp only [List.mem_cons, List.not_mem_nil, or_false] at h
    rcases h with rfl | rfl | rfl | rfl | rfl <;> simp [isBlank, isDigit, isNameStart]
  | openParen => simp [isBlank, isDigit, isNameStart]
  | closeParen => simp [isBlank, isDigit, isNameStart]
  | comma => simp [isBlank, isDigit, isNameStart]

theorem scanFrom_stray {c : Char} {rest : List Char} {pos : Nat} (hb : isBlank c = false)
    (hc : beginsToken c = false) :
    scanFrom (c :: rest) pos =
      .error ⟨.strayCharacter c pos, pos, pos + 1, some (String.singleton c)⟩ := by
  simp only [beginsToken, Bool.or_eq_false_iff, decide_eq_false_iff_not] at hc
  rw [scanFrom]
  simp [hb, hc]

theorem front_cases (c : Char) :
    isBlank c = true ∨ (isDigit c = true ∨ c = '.') ∨ isNameStart c = true ∨
      (∃ kind, SingleToken c kind) ∨ (isBlank c = false ∧ beginsToken c = false) := by
  by_cases hb : isBlank c = true
  · exact .inl hb
  by_cases hd : isDigit c = true ∨ c = '.'
  · exact .inr (.inl hd)
  by_cases hn : isNameStart c = true
  · exact .inr (.inr (.inl hn))
  by_cases hs : ∃ kind, SingleToken c kind
  · exact .inr (.inr (.inr (.inl hs)))
  -- none of the classes: the character begins no token
  have hop : ∀ o ∈ ['+', '-', '*', '/', '^'], c ≠ o := by
    rintro o ho rfl
    exact hs ⟨_, .operator ho⟩
  have hopen : c ≠ '(' := by rintro rfl; exact hs ⟨_, .openParen⟩
  have hclose : c ≠ ')' := by rintro rfl; exact hs ⟨_, .closeParen⟩
  have hcomma : c ≠ ',' := by rintro rfl; exact hs ⟨_, .comma⟩
  simp only [not_or, Bool.not_eq_true] at hb hd hn
  simp only [List.mem_cons, List.not_mem_nil, or_false, forall_eq_or_imp, forall_eq] at hop
  refine .inr (.inr (.inr (.inr ⟨hb, ?_⟩)))
  simp [beginsToken, hd, hn, hop, hopen, hclose, hcomma]

/-! ## Tokens at their places -/

namespace Tokenized

variable {cs : List Char} {lo hi : Nat} {ts : List Token}

theorem nil (cs : List Char) (lo : Nat) : Tokenized cs lo lo [] where
  le := Nat.le_refl lo
  lexemes := by simp
  ordered := .nil
  after_lo := by simp
  before_hi := by simp
  blanks i h₁ h₂ := absurd h₂ (Nat.not_lt.2 h₁)

/-- A blank in front of the tokens of a stretch. -/
theorem skip (h : Tokenized cs (lo + 1) hi ts) (hb : ∀ c ∈ cs[lo]?, isBlank c = true) :
    Tokenized cs lo hi ts where
  le := Nat.le_of_succ_le h.le
  lexemes := h.lexemes
  ordered := h.ordered
  after_lo t ht := Nat.le_of_succ_le (h.after_lo t ht)
  before_hi := h.before_hi
  blanks i h₁ h₂ hfree := by
    rcases Nat.eq_or_lt_of_le h₁ with rfl | h₁
    · exact hb
    · exact h.blanks i h₁ h₂ hfree

/-- A token in front of the tokens of the stretch that starts where it ends. -/
theorem cons {t : Token} (ht : Lexeme cs t) (h : Tokenized cs t.stop hi ts) :
    Tokenized cs t.pos hi (t :: ts) where
  le := Nat.le_trans (Nat.le_of_lt ht.nonempty) h.le
  lexemes := List.forall_mem_cons.2 ⟨ht, h.lexemes⟩
  ordered := List.pairwise_cons.2 ⟨h.after_lo, h.ordered⟩
  after_lo := List.forall_mem_cons.2
    ⟨Nat.le_refl _, fun t' ht' => Nat.le_trans (Nat.le_of_lt ht.nonempty) (h.after_lo t' ht')⟩
  before_hi := List.forall_mem_cons.2 ⟨h.le, h.before_hi⟩
  blanks i h₁ h₂ hfree := by
    -- a position that the front token does not cover lies after it
    have hstop : t.stop ≤ i := by
      rcases hfree t (List.mem_cons_self ..) with h | h
      · exact absurd h (Nat.not_lt.2 h₁)
      · exact h
    exact h.blanks i hstop h₂ fun t' ht' => hfree t' (List.mem_cons_of_mem t ht')

end Tokenized

theorem Malformed.ne_nil {text after : List Char} (h : Malformed text after) : text ≠ [] := by
  cases h <;> simp

/-- A refusal is a lexical error over a non-empty span inside the text. -/
theorem Refusal.span {cs : List Char} {err : ParseError} (h : Refusal cs err) :
    err.problem.kind = .lexical ∧ err.start < err.stop ∧ err.stop ≤ cs.length := by
  cases h with
  | stray hc =>
    exact ⟨rfl, Nat.lt_succ_self _, (List.getElem?_eq_some_iff.1 hc).1⟩
  | @malformed i text htext hm =>
    have hne := hm.ne_nil
    have hlen := congrArg List.length htext
    simp only [List.length_take, List.length_drop] at hlen
    have : 0 < text.length := List.length_pos_iff.2 hne
    refine ⟨rfl, by simp only; omega, by simp only; omega⟩

/-- Where the text is `c :: rest` from position `pos` on, the text from `pos + k` on is what is
left of `rest` after `k - 1` more characters. -/
theorem drop_after {whole rest : List Char} {pos k : Nat} {c : Char}
    (h : whole.drop pos = c :: rest) (hk : 0 < k) : whole.drop (pos + k) = rest.drop (k - 1) := by
  obtain ⟨j, rfl⟩ : ∃ j, k = j + 1 := ⟨k - 1, by omega⟩
  rw [← List.drop_drop, h]
  simp

theorem drop_next {whole rest : List Char} {pos : Nat} {c : Char}
    (h : whole.drop pos = c :: rest) : whole.drop (pos + 1) = rest := by
  simpa using drop_after h Nat.one_pos

theorem lexeme_number {whole cs : List Char} {pos : Nat} {n : NumberText}
    (hcs : whole.drop pos = cs) (hn : scanNumber cs = .ok n) :
    Lexeme whole ⟨.number n.value, String.ofList n.text, pos, pos + n.text.length⟩ := by
  obtain ⟨p, x, after, rfl, htext, hparts, hends⟩ := scanNumber_eq_ok.1 hn
  have hlen : 0 < n.text.length := by
    rw [htext]
    simp only [List.length_append]
    rcases hparts.some_digit with h | h <;> have := List.length_pos_iff.2 h <;> omega
  have hafter : whole.drop (pos + n.text.length) = after := by
    rw [← List.drop_drop, hcs, List.drop_left]
  have hin := congrArg List.length hcs
  simp only [List.length_drop, List.length_append] at hin
  refine ⟨Nat.lt_add_of_pos_right hlen, show pos + n.text.length ≤ whole.length by omega, ?_,
    .number rfl ⟨⟨n.whole, p, n.fraction, x,
    n.exponent, by rw [String.toList_ofList, htext], hparts, by simpa only [hafter] using hends⟩,
    ?_⟩⟩
  · simp [hcs]
  · rw [htext]
    exact readReal_numeral hparts

theorem lexeme_name {whole rest : List Char} {pos : Nat} {c : Char}
    (hcs : whole.drop pos = c :: rest) (hc : isNameStart c = true) :
    Lexeme whole ⟨if functionNames.contains (String.ofList (c :: rest.takeWhile isNamePart))
        then .function else .variable, String.ofList (c :: rest.takeWhile isNamePart), pos,
        pos + ((rest.takeWhile isNamePart).length + 1)⟩ := by
  have hafter : whole.drop (pos + ((rest.takeWhile isNamePart).length + 1)) =
      rest.dropWhile isNamePart := by
    rw [drop_after hcs (by omega), Nat.add_sub_cancel, drop_length_takeWhile]
  have hin := congrArg List.length hcs
  simp only [List.length_drop, List.length_cons] at hin
  have hpart : (rest.takeWhile isNamePart).length ≤ rest.length :=
    List.IsPrefix.length_le (List.takeWhile_prefix _)
  have hname : ∀ kind, NameAt whole ⟨kind, String.ofList (c :: rest.takeWhile isNamePart),
      pos, pos + ((rest.takeWhile isNamePart).length + 1)⟩ := fun _ =>
    ⟨⟨c, _, String.toList_ofList, hc, fun c hc => List.all_eq_true.1 List.all_takeWhile c hc⟩,
      by simpa only [hafter] using head_dropWhile rest⟩
  refine ⟨by simp only; omega, by simp only; omega, ?_, ?_⟩
  · rw [String.toList_ofList, hcs, Nat.add_sub_cancel_left, List.take_succ_cons,
      take_length_takeWhile]
  · -- a name is a function token exactly when it is a built-in function
    by_cases hf : functionNames.contains (String.ofList (c :: rest.takeWhile isNamePart)) = true
    · exact .function (if_pos hf) (hname _) (List.contains_iff_mem.1 hf)
    · exact .name (if_neg hf) (hname _) fun hmem => hf (List.contains_iff_mem.2 hmem)

theorem lexeme_single {whole rest : List Char} {pos : Nat} {c : Char} {kind : TokenKind}
    (hcs : whole.drop pos = c :: rest) (hk : SingleToken c kind) :
    Lexeme whole ⟨kind, String.singleton c, pos, pos + 1⟩ := by
  have hin := congrArg List.length hcs
  simp only [List.length_drop, List.length_cons] at hin
  refine ⟨Nat.lt_succ_self _, show pos + 1 ≤ whole.length by omega, by simp [hcs], ?_⟩
  cases hk with
  | operator h =>
    simp only [List.mem_cons, List.not_mem_nil, or_false] at h
    exact .operator rfl
      (show String.singleton c ∈ _ by rcases h with rfl | rfl | rfl | rfl | rfl <;> decide)
  | openParen => exact .openParen rfl rfl
  | closeParen => exact .closeParen rfl rfl
  | comma => exact .comma rfl rfl

/-! ## Whole runs of the scanner -/

/-- What the scanner returns from a position on, when it returns tokens: the tokens of the rest
of the text and the end token at the text's length. -/
theorem scanFrom_eq_ok {whole : List Char} (cs : List Char) {pos : Nat} {toks : List Token}
    (hcs : whole.drop pos = cs) (hpos : pos ≤ whole.length) (h : scanFrom cs pos = .ok toks) :
    ∃ ts, toks = ts ++ [Token.finish whole.length] ∧ Tokenized whole pos whole.length ts := by
  rcases cs with _ | ⟨c, rest⟩
  · have hend : pos = whole.length := by
      have := List.drop_eq_nil_iff.1 hcs
      omega
    rw [scanFrom] at h
    cases h
    subst hend
    exact ⟨[], rfl, Tokenized.nil whole _⟩
  · have hat : whole[pos]? = some c := by rw [← List.head?_drop, hcs]; rfl
    have hlt : pos < whole.length := (List.getElem?_eq_some_iff.1 hat).1
    rcases front_cases c with hb | hd | hn | ⟨kind, hk⟩ | ⟨hb, hbegin⟩
    · rw [scanFrom_blank hb] at h
      obtain ⟨ts, rfl, hts⟩ := scanFrom_eq_ok rest (drop_next hcs) hlt h
      refine ⟨ts, rfl, hts.skip fun c' hc' => ?_⟩
      rw [hat] at hc'
      cases hc'
      exact hb
    · rcases hn : scanNumber (c :: rest) with text | n
      · rw [scanFrom_badNumber hd hn] at h
        cases h
      · rw [scanFrom_number hd hn] at h
        obtain ⟨us, hus, rfl⟩ := map_eq_ok.1 h
        have hlex := lexeme_number hcs hn
        have hlen : 0 < n.text.length := Nat.lt_of_add_lt_add_left hlex.nonempty
        obtain ⟨ts, rfl, hts⟩ :=
          scanFrom_eq_ok (rest.drop (n.text.length - 1)) (drop_after hcs hlen) hlex.inside hus
        exact ⟨_ :: ts, rfl, hts.cons hlex⟩
    · rw [scanFrom_name hn] at h
      obtain ⟨us, hus, rfl⟩ := map_eq_ok.1 h
      have hlex := lexeme_name hcs hn
      have hnext := drop_after hcs (by omega : 0 < (rest.takeWhile isNamePart).length + 1)
      rw [Nat.add_sub_cancel] at hnext
      obtain ⟨ts, rfl, hts⟩ :=
        scanFrom_eq_ok (rest.drop (rest.takeWhile isNamePart).length) hnext hlex.inside hus
      exact ⟨_ :: ts, rfl, hts.cons hlex⟩
    · rw [scanFrom_single hk] at h
      obtain ⟨us, hus, rfl⟩ := map_eq_ok.1 h
      have hlex := lexeme_single hcs hk
      obtain ⟨ts, rfl, hts⟩ := scanFrom_eq_ok rest (drop_next hcs) hlex.inside hus
      exact ⟨_ :: ts, rfl, hts.cons hlex⟩
    · rw [scanFrom_stray hb hbegin] at h
      cases h
termination_by whole.length - pos
decreasing_by all_goals omega

/-- Where the scanner refuses a text from a position on: at a refusal, after the tokens of the
stretch before it, and these are exactly the tokens it returns for the text cut there. -/
theorem scanFrom_eq_error {whole : List Char} (cs : List Char) {pos : Nat} {err : ParseError}
    (hcs : whole.drop pos = cs) (h : scanFrom cs pos = .error err) :
    pos ≤ err.start ∧ Refusal whole err ∧ ∃ ts, Tokenized whole pos err.start ts ∧
      scanFrom (cs.take (err.start - pos)) pos = .ok (ts ++ [Token.finish err.start]) := by
  rcases cs with _ | ⟨c, rest⟩
  · rw [scanFrom] at h
    cases h
  · have hat : whole[pos]? = some c := by rw [← List.head?_drop, hcs]; rfl
    have hlt : pos < whole.length := (List.getElem?_eq_some_iff.1 hat).1
    -- the refusal at the front: nothing is read before it
    have hnone : scanFrom ((c :: rest).take (pos - pos)) pos = .ok ([] ++ [Token.finish pos]) := by
      rw [Nat.sub_self, List.take_zero, scanFrom]
      rfl
    rcases front_cases c with hb | hd | hn | ⟨kind, hk⟩ | ⟨hb, hbegin⟩
    · rw [scanFrom_blank hb] at h
      obtain ⟨hle, href, ts, hts, hscan⟩ := scanFrom_eq_error rest (drop_next hcs) h
      refine ⟨by omega, href, ts, hts.skip fun c' hc' => ?_, ?_⟩
      · rw [hat] at hc'
        cases hc'
        exact hb
      · rw [show err.start - pos = err.start - (pos + 1) + 1 by omega, List.take_succ_cons,
          scanFrom_blank hb]
        exact hscan
    · rcases hn : scanNumber (c :: rest) with text | n
      · -- a malformed number
        rw [scanFrom_badNumber hd hn] at h
        cases h
        obtain ⟨after, hsplit, hm⟩ := scanNumber_eq_error ⟨c, rfl, hd⟩ hn
        refine ⟨Nat.le_refl _, .malformed ?_ ?_, [], Tokenized.nil whole pos, hnone⟩
        · rw [hcs, hsplit, List.take_left]
        · rw [← List.drop_drop, hcs, hsplit, List.drop_left]
          exact hm
      · rw [scanFrom_number hd hn, map_eq_error] at h
        have hlex := lexeme_number hcs hn
        have hlen : 0 < n.text.length := Nat.lt_of_add_lt_add_left hlex.nonempty
        obtain ⟨hle, href, ts, hts, hscan⟩ :=
          scanFrom_eq_error (rest.drop (n.text.length - 1)) (drop_after hcs hlen) h
        refine ⟨by omega, href, _ :: ts, hts.cons hlex, ?_⟩
        -- the text cut at the refusal still holds the whole number
        have hcut : scanNumber (c :: rest.take (err.start - pos - 1)) = .ok n := by
          rw [← List.take_succ_cons]
          exact scanNumber_take hn (by omega)
        rw [show err.start - pos = err.start - pos - 1 + 1 by omega, List.take_succ_cons,
          scanFrom_number hd hcut, List.drop_take,
          show err.start - pos - 1 - (n.text.length - 1) = err.start - (pos + n.text.length)
            by omega, hscan]
        rfl
    · rw [scanFrom_name hn, map_eq_error] at h
      have hlex := lexeme_name hcs hn
      have hnext := drop_after hcs (by omega : 0 < (rest.takeWhile isNamePart).length + 1)
      rw [Nat.add_sub_cancel] at hnext
      obtain ⟨hle, href, ts, hts, hscan⟩ :=
        scanFrom_eq_error (rest.drop (rest.takeWhile isNamePart).length) hnext h
      refine ⟨by omega, href, _ :: ts, hts.cons hlex, ?_⟩
      -- the text cut at the refusal still holds the whole name
      have hcut : (rest.take (err.start - pos - 1)).takeWhile isNamePart =
          rest.takeWhile isNamePart := by
        rw [← List.take_takeWhile, List.take_of_length_le (by omega)]
      rw [show err.start - pos = err.start - pos - 1 + 1 by omega, List.take_succ_cons,
        scanFrom_name hn, hcut, List.drop_take,
        show err.start - pos - 1 - (rest.takeWhile isNamePart).length =
          err.start - (pos + ((rest.takeWhile isNamePart).length + 1)) by omega, hscan]
      rfl
    · rw [scanFrom_single hk, map_eq_error] at h
      have hlex := lexeme_single hcs hk
      obtain ⟨hle, href, ts, hts, hscan⟩ := scanFrom_eq_error rest (drop_next hcs) h
      refine ⟨by omega, href, _ :: ts, hts.cons hlex, ?_⟩
      rw [show err.start - pos = err.start - (pos + 1) + 1 by omega, List.take_succ_cons,
        scanFrom_single hk, hscan]
      rfl
    · -- a character that begins no token
      rw [scanFrom_stray hb hbegin] at h
      cases h
      exact ⟨Nat.le_refl _, .stray hat hb hbegin, [], Tokenized.nil whole pos, hnone⟩
termination_by whole.length - pos
decreasing_by all_goals omega

/-- The scanner takes the longest token each time. A text it reads gives the tokens of the whole
text and one end token at its length. A text it refuses is refused for a lexical cause over a
non-empty span inside the text, at a character that begins no token or at a malformed number,
after the tokens of the text before that point; and these are exactly the tokens it returns for
the text cut there. -/
theorem tokenize_longest_match (s : String) :
    (∀ toks, tokenize s = .ok toks →
      ∃ ts, toks = ts ++ [Token.finish s.length] ∧ Tokenized s.toList 0 s.length ts) ∧
    (∀ err, tokenize s = .error err →
      err.problem.kind = .lexical ∧ err.start < err.stop ∧ err.stop ≤ s.length ∧
        Refusal s.toList err ∧ ∃ ts, Tokenized s.toList 0 err.start ts ∧
          tokenize (String.ofList (s.toList.take err.start)) =
            .ok (ts ++ [Token.finish err.start])) := by
  constructor
  · intro toks h
    simpa [String.length_toList] using
      scanFrom_eq_ok s.toList List.drop_zero (Nat.zero_le _) h
  · intro err h
    obtain ⟨-, href, ts, hts, hscan⟩ := scanFrom_eq_error s.toList List.drop_zero h
    obtain ⟨hkind, hspan, hstop⟩ := href.span
    refine ⟨hkind, hspan, by simpa [String.length_toList] using hstop, href, ts, hts, ?_⟩
    unfold tokenize
    rw [String.toList_ofList]
    simpa using hscan

end ScalarDiff.Source
