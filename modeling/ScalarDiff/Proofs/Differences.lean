import ScalarDiff.Proofs.Aborts
import ScalarDiff.Proofs.Symmetry

/-!
# Finite differences follow their formulas

A finite-difference estimate runs the machine at perturbed copies of the point and combines the
results by fixed formulas. This module states the formulas one coordinate or one pair at a time
(`Difference.centralDifference`, `Difference.secondDifference`, `Difference.mixedDifference`)
and proves that the estimates are these formulas taken in a fixed order
(`differences_follow_formulas`):

* the gradient is the central difference of each coordinate in turn, each from the run with the
  coordinate raised by `h` and then the run with it lowered by `h`;
* the Hessian is the run at the point itself, then the second difference of each coordinate in
  turn, then the mixed difference of each pair `i < j` in lexicographic order; its diagonal holds
  the second differences, and the mixed difference of `i < j` stands at `(i, j)` and at `(j, i)`;
* the first run that fails ends the estimate with its failure, named after the probe point.

The quotients are those of doubles, where a zero divisor aborts. The square `h·h` is zero for
every step below about `1.6e-162`, usable though such a step is, and then the Hessian aborts at
its first diagonal entry, before the runs that come after it
(`tiny_step_aborts_before_failing_probe`).

An estimate keeps nothing from one call to the next: every run starts from the point as given.
-/

namespace ScalarDiff

variable {ε α β : Type}

/-- The result in each place of a successful traversal is what its step gives there. -/
theorem getElem?_of_mapM_eq_ok {f : α → Except ε β} :
    ∀ {l : List α} {r : List β}, l.mapM f = .ok r →
      ∀ {k : Nat} {a : α}, l[k]? = some a → ∃ b, r[k]? = some b ∧ f a = .ok b
  | [], _, _, _, _, hk => by simp at hk
  | y :: l, r, h, k, a, hk => by
    rw [List.mapM_cons] at h
    obtain ⟨c, hc, h⟩ := bind_eq_ok.1 h
    obtain ⟨cs, hcs, h⟩ := bind_eq_ok.1 h
    cases h
    cases k with
    | zero =>
      cases hk
      exact ⟨c, rfl, hc⟩
    | succ k => exact getElem?_of_mapM_eq_ok hcs hk

namespace Difference

/-- The pairs `(i, j)` with `i < j < n`, in lexicographic order. -/
def pairsAbove (n : Nat) : List (Nat × Nat) :=
  (List.range n).flatMap fun i => (List.range' (i + 1) (n - (i + 1))).map ((i, ·))

theorem mem_pairsAbove {n i j : Nat} : (i, j) ∈ pairsAbove n ↔ i < j ∧ j < n := by
  simp only [pairsAbove, List.mem_flatMap, List.mem_range, List.mem_map, List.mem_range',
    Prod.mk.injEq]
  constructor
  · rintro ⟨a, ha, b, ⟨c, hc, rfl⟩, rfl, rfl⟩
    omega
  · rintro ⟨hij, hj⟩
    exact ⟨i, by omega, j, ⟨j - (i + 1), by omega, by omega⟩, rfl, rfl⟩

/-! ## The formulas -/

section Formulas

variable (p : Bytecode Float) (h : Float) (x : List Float)

/-- The central difference of coordinate `i`: the run at `x[i ↦ xᵢ+h]`, then the run at
`x[i ↦ xᵢ−h]`, and `(f₊ − f₋) / (2h)`. -/
def centralDifference (i : Nat) : Except Failure Float := do
  let fp ← probe p (.plus i) (x.set i (coord x i + h))
  let fm ← probe p (.minus i) (x.set i (coord x i - h))
  Failure.lift (Scalar.div (fp - fm) (2.0 * h))

/-- The second difference of coordinate `i` about the value `f0` at the point: the run at
`x[i ↦ xᵢ+h]`, then the run at `x[i ↦ xᵢ−h]`, and the raised value with
`((f₊ − 2 f0) + f₋) / (h·h)`. -/
def secondDifference (f0 : Float) (i : Nat) : Except Failure (Float × Float) := do
  let fp ← probe p (.plus i) (x.set i (coord x i + h))
  let fm ← probe p (.minus i) (x.set i (coord x i - h))
  let d ← Failure.lift (Scalar.div (fp - 2.0 * f0 + fm) (h * h))
  pure (fp, d)

/-- The mixed difference of coordinates `i` and `j` about the value `f0` at the point, given the
raised values: the run at `x[i ↦ xᵢ+h, j ↦ xⱼ+h]` and `(((f₊₊ − f₊ᵢ) − f₊ⱼ) + f0) / (h·h)`. -/
def mixedDifference (f0 : Float) (raised : List Float) (i j : Nat) : Except Failure Float := do
  let fij ← probe p (.plusPlus i j) ((x.set i (coord x i + h)).set j (coord x j + h))
  pure ((fij - raised.getD i 0.0 - raised.getD j 0.0 + f0) / (h * h))

/-- The Hessian as its formulas give it: the run at the point, the second difference of each
coordinate in turn, the mixed difference of each pair above the diagonal in lexicographic
order, and the matrix of these entries. -/
def hessianByFormulas : Except Failure (List (List Float)) := do
  let f0 ← probe p .base x
  let diag ← (List.range x.length).mapM (secondDifference p h x f0)
  let mixed ← (pairsAbove x.length).mapM fun ij =>
    (fun m => (ij.1, ij.2, m)) <$> mixedDifference p h x f0 (diag.map (·.1)) ij.1 ij.2
  pure (assemble x.length (diag.map (·.2)) mixed)

end Formulas

/-! ## The work vector

Every loop moves coordinates of the work vector and writes them back: a coordinate raised or
lowered for a run is restored to the value it had, so each step of a loop runs at the vector it
was handed with only its own coordinates moved (`gradientAt_eq`, `diagonalAt_eq`, `mixedRow_succ`)
and hands the vector on as it found it; by induction every loop leaves the vector as it found it
(`gradientFrom_restores`, `diagonalFrom_restores`, `mixedFrom_restores`). So the mixed entries of
a Hessian start from the point itself, and every run sees the point with one or two coordinates
moved.
-/

section WorkVector

variable {γ : Type} [Scalar γ] (p : Bytecode γ) (h : Float)

/-- Writing a coordinate's own value back leaves a vector as it was. -/
theorem set_coord_self (w : List Float) (i : Nat) : w.set i (coord w i) = w := by
  by_cases hi : i < w.length
  · rw [coord, ← List.getElem_eq_getD 0.0, List.set_getElem_self hi]
    exact hi
  · exact List.set_eq_of_length_le (by omega)

/-- Moving one coordinate leaves every other coordinate where it was. -/
theorem coord_set_ne {w : List Float} {i j : Nat} (hij : i ≠ j) (v : Float) :
    coord (w.set i v) j = coord w j := by
  simp only [coord, List.getD_eq_getElem?_getD, List.getElem?_set_ne hij]

/-- One coordinate of the gradient runs at the vector with that coordinate raised, then lowered,
and hands the vector on as it found it. -/
theorem gradientAt_eq (i : Nat) (w : List Float) :
    gradientAt p h i w = (do
      let fp ← probe p (.plus i) (w.set i (coord w i + h))
      let fm ← probe p (.minus i) (w.set i (coord w i - h))
      let g ← Failure.lift (slope h fp fm)
      pure (g, w)) := by
  simp only [gradientAt, List.set_set, set_coord_self]

/-- One diagonal entry runs at the vector with its coordinate raised, then lowered, and hands the
vector on as it found it. -/
theorem diagonalAt_eq (f0 : γ) (i : Nat) (w : List Float) :
    diagonalAt p h f0 i w = (do
      let fp ← probe p (.plus i) (w.set i (coord w i + h))
      let fm ← probe p (.minus i) (w.set i (coord w i - h))
      let raised ← Failure.lift (Scalar.toFloat fp)
      let d ← Failure.lift (curvature h f0 fp fm)
      pure ((raised, d), w)) := by
  simp only [diagonalAt, List.set_set, set_coord_self]

/-- One mixed entry runs at the vector with its column raised, and the rest of the row continues
from the vector as it was. -/
theorem mixedRow_succ (f0 : γ) (raised : List Float) (i j : Nat) (w : List Float) (left : Nat) :
    mixedRow p h f0 raised i j w (left + 1) = (do
      let fij ← probe p (.plusPlus i j) (w.set j (coord w j + h))
      let a ← Failure.lift (Scalar.toFloat fij)
      let b ← Failure.lift (Scalar.toFloat f0)
      let (rest, w') ← mixedRow p h f0 raised i (j + 1) w left
      pure ((j, (a - raised.getD i 0.0 - raised.getD j 0.0 + b) / (h * h)) :: rest, w')) := by
  simp only [mixedRow, List.set_set, set_coord_self]

theorem gradientAt_restores {i : Nat} {w w' : List Float} {g : Float}
    (hg : gradientAt p h i w = .ok (g, w')) : w' = w := by
  rw [gradientAt_eq] at hg
  obtain ⟨fp, -, hg⟩ := bind_eq_ok.1 hg
  obtain ⟨fm, -, hg⟩ := bind_eq_ok.1 hg
  obtain ⟨g, -, hg⟩ := bind_eq_ok.1 hg
  cases hg
  rfl

theorem diagonalAt_restores {f0 : γ} {i : Nat} {w w' : List Float} {e : Float × Float}
    (hd : diagonalAt p h f0 i w = .ok (e, w')) : w' = w := by
  rw [diagonalAt_eq] at hd
  obtain ⟨fp, -, hd⟩ := bind_eq_ok.1 hd
  obtain ⟨fm, -, hd⟩ := bind_eq_ok.1 hd
  obtain ⟨raised, -, hd⟩ := bind_eq_ok.1 hd
  obtain ⟨d, -, hd⟩ := bind_eq_ok.1 hd
  cases hd
  rfl

/-- The gradient leaves the work vector as it found it. -/
theorem gradientFrom_restores {i left : Nat} {w w' : List Float} {gs : List Float}
    (hg : gradientFrom p h i w left = .ok (gs, w')) : w' = w := by
  induction left generalizing i w gs with
  | zero =>
    cases hg
    rfl
  | succ left ih =>
    rw [gradientFrom] at hg
    obtain ⟨⟨g, w1⟩, hat, hnext⟩ := bind_eq_ok.1 hg
    obtain rfl := gradientAt_restores p h hat
    obtain ⟨⟨rest, w2⟩, hrest, hnext⟩ := bind_eq_ok.1 hnext
    cases hnext
    exact ih hrest

/-- The diagonal leaves the work vector as it found it. -/
theorem diagonalFrom_restores {f0 : γ} {i left : Nat} {w w' : List Float}
    {ds : List (Float × Float)} (hd : diagonalFrom p h f0 i w left = .ok (ds, w')) : w' = w := by
  induction left generalizing i w ds with
  | zero =>
    cases hd
    rfl
  | succ left ih =>
    rw [diagonalFrom] at hd
    obtain ⟨⟨e, w1⟩, hat, hnext⟩ := bind_eq_ok.1 hd
    obtain rfl := diagonalAt_restores p h hat
    obtain ⟨⟨rest, w2⟩, hrest, hnext⟩ := bind_eq_ok.1 hnext
    cases hnext
    exact ih hrest

/-- A row of mixed entries leaves the work vector as it found it, its row coordinate raised. -/
theorem mixedRow_restores {f0 : γ} {raised : List Float} {i j left : Nat} {w w' : List Float}
    {row : List (Nat × Float)} (hr : mixedRow p h f0 raised i j w left = .ok (row, w')) :
    w' = w := by
  induction left generalizing j row with
  | zero =>
    cases hr
    rfl
  | succ left ih =>
    rw [mixedRow_succ] at hr
    obtain ⟨fij, -, hr⟩ := bind_eq_ok.1 hr
    obtain ⟨a, -, hr⟩ := bind_eq_ok.1 hr
    obtain ⟨b, -, hr⟩ := bind_eq_ok.1 hr
    obtain ⟨⟨rest, w1⟩, hrest, hr⟩ := bind_eq_ok.1 hr
    cases hr
    exact ih hrest

/-- A row of mixed entries runs with its coordinate raised and then restores it, so the rows
after it continue from the vector as it was. -/
theorem mixedFrom_succ (f0 : γ) (raised : List Float) (n i : Nat) (w : List Float) (left : Nat) :
    mixedFrom p h f0 raised n i w (left + 1) = (do
      let (row, _) ← mixedRow p h f0 raised i (i + 1) (w.set i (coord w i + h)) (n - (i + 1))
      let (rest, w') ← mixedFrom p h f0 raised n (i + 1) w left
      pure (row.map (fun (j, m) => (i, j, m)) ++ rest, w')) := by
  rw [mixedFrom]
  cases hr : mixedRow p h f0 raised i (i + 1) (w.set i (coord w i + h)) (n - (i + 1)) with
  | error e => rfl
  | ok r =>
    obtain ⟨row, w1⟩ := r
    -- the row hands back the vector with coordinate `i` still raised, which is then restored
    obtain rfl := mixedRow_restores p h hr
    simp only [ok_bind, List.set_set, set_coord_self]

/-- The mixed entries leave the work vector as they found it. -/
theorem mixedFrom_restores {f0 : γ} {raised : List Float} {n i left : Nat} {w w' : List Float}
    {mixed : List (Nat × Nat × Float)} (hm : mixedFrom p h f0 raised n i w left = .ok (mixed, w')) :
    w' = w := by
  induction left generalizing i mixed with
  | zero =>
    cases hm
    rfl
  | succ left ih =>
    rw [mixedFrom_succ] at hm
    obtain ⟨⟨row, w1⟩, -, hm⟩ := bind_eq_ok.1 hm
    obtain ⟨⟨rest, w2⟩, hrest, hm⟩ := bind_eq_ok.1 hm
    cases hm
    exact ih hrest

end WorkVector

/-! ## The loops run the formulas in order -/

section Loops

variable {p : Bytecode Float} {h : Float} {x : List Float}

theorem slope_float (fp fm : Float) : slope h fp fm = Scalar.div (fp - fm) (2.0 * h) := by
  simp only [slope, Scalar.sub, Scalar.ofFloat_float, ok_bind]
  cases Scalar.div (fp - fm) (2.0 * h) <;> rfl

theorem curvature_float (f0 fp fm : Float) :
    curvature h f0 fp fm = Scalar.div (fp - 2.0 * f0 + fm) (h * h) := by
  simp only [curvature, Scalar.mul, Scalar.sub, Scalar.add, Scalar.ofFloat_float, ok_bind]
  cases Scalar.div (fp - 2.0 * f0 + fm) (h * h) <;> rfl

theorem gradientFrom_eq_mapM (i left : Nat) :
    gradientFrom p h i x left =
      (fun gs => (gs, x)) <$> (List.range' i left).mapM (centralDifference p h x) := by
  induction left generalizing i with
  | zero => rfl
  | succ left ih =>
    simp only [gradientFrom, gradientAt_eq, List.range'_succ, List.mapM_cons, centralDifference,
      slope_float, ih, bind_assoc, map_bind, bind_map_left, pure_bind, map_pure]

theorem diagonalFrom_eq_mapM (f0 : Float) (i left : Nat) :
    diagonalFrom p h f0 i x left =
      (fun ds => (ds, x)) <$> (List.range' i left).mapM (secondDifference p h x f0) := by
  induction left generalizing i with
  | zero => rfl
  | succ left ih =>
    simp only [diagonalFrom, diagonalAt_eq, List.range'_succ, List.mapM_cons, secondDifference,
      curvature_float, Scalar.toFloat_float, Failure.lift_ok, ok_bind, ih, bind_assoc, map_bind,
      bind_map_left, pure_bind, map_pure]

/-- A row of mixed entries, on the point with the row's coordinate raised and each entry tagged
with its pair, is the mixed differences of the row in turn. -/
theorem mixedRow_eq_mapM (f0 : Float) (raised : List Float) (i j0 left : Nat) (hj : i < j0) :
    (fun r => (r.1.map fun e => (i, e.1, e.2))) <$>
        mixedRow p h f0 raised i j0 (x.set i (coord x i + h)) left =
      ((List.range' j0 left).map ((i, ·))).mapM fun ij =>
        (fun m => (ij.1, ij.2, m)) <$> mixedDifference p h x f0 raised ij.1 ij.2 := by
  induction left generalizing j0 with
  | zero => rfl
  | succ left ih =>
    rw [List.range'_succ, List.map_cons, List.mapM_cons, ← ih (j0 + 1) (by omega),
      mixedRow_succ, coord_set_ne (Nat.ne_of_lt hj)]
    simp only [mixedDifference, Scalar.toFloat_float, Failure.lift_ok, ok_bind, map_bind,
      bind_assoc, bind_map_left, map_pure, pure_bind, List.map_cons]

theorem mixedFrom_eq_mapM (f0 : Float) (raised : List Float) (n i left : Nat) :
    mixedFrom p h f0 raised n i x left =
      (fun m => (m, x)) <$> ((List.range' i left).flatMap fun i =>
        (List.range' (i + 1) (n - (i + 1))).map ((i, ·))).mapM fun ij =>
          (fun m => (ij.1, ij.2, m)) <$> mixedDifference p h x f0 raised ij.1 ij.2 := by
  induction left generalizing i with
  | zero => rfl
  | succ left ih =>
    -- the first row's entries, tagged with `i`, are the traversal of its pairs
    rw [mixedFrom_succ, ih, List.range'_succ, List.flatMap_cons, List.mapM_append,
      ← mixedRow_eq_mapM f0 raised i (i + 1) _ (Nat.lt_succ_self i)]
    simp only [map_bind, bind_map_left, map_pure]

end Loops

/-! ## The assembled matrix -/

section Assemble

variable {n : Nat} {d : List Float} {mixed : List (Nat × Nat × Float)}

theorem isSquare_assemble : Dense.IsSquare n (assemble n d mixed) := by
  refine ⟨by rw [assemble, List.length_map, List.length_range], fun r hr => ?_⟩
  obtain ⟨i, -, rfl⟩ := List.mem_map.1 hr
  rw [List.length_map, List.length_range]

theorem cell_assemble_diag {i : Nat} (hi : i < n) :
    Dense.cell (assemble n d mixed) i i = some (d.getD i 0.0) := by
  simp [Dense.cell, assemble, List.getElem?_range hi]

/-- An entry above the diagonal and its mirror image below it hold the value listed for their
pair, when the pair is listed and every listing of it gives that value. -/
theorem cell_assemble_above {i j : Nat} {v : Float} (hij : i < j) (hj : j < n)
    (hlisted : ∃ m, (i, j, m) ∈ mixed) (hval : ∀ m, (i, j, m) ∈ mixed → m = v) :
    Dense.cell (assemble n d mixed) i j = some v ∧ Dense.cell (assemble n d mixed) j i = some v := by
  -- the search for the pair finds one of its listings
  have hsome : (mixed.find? fun e => e.1 = i ∧ e.2.1 = j).isSome := by
    rw [List.find?_isSome]
    obtain ⟨m, hm⟩ := hlisted
    exact ⟨(i, j, m), hm, by simp⟩
  obtain ⟨⟨a, b, m⟩, hfind⟩ := Option.isSome_iff_exists.1 hsome
  have hkey := List.find?_some hfind
  simp only [decide_eq_true_eq] at hkey
  obtain ⟨rfl, rfl⟩ := hkey
  obtain rfl : m = v := hval m (List.mem_of_find?_eq_some hfind)
  have hi : a < n := by omega
  simp only [Bool.decide_and] at hfind
  constructor
  · simp [Dense.cell, assemble, List.getElem?_range hi, List.getElem?_range hj, Nat.ne_of_lt hij,
      hij, hfind]
  · simp [Dense.cell, assemble, List.getElem?_range hi, List.getElem?_range hj, Nat.ne_of_gt hij,
      Nat.not_lt.2 (Nat.le_of_lt hij), hfind]

/-- A traversal of pairs whose steps tag each value with its pair lists every pair of the
traversal with its value, and nothing else. -/
theorem listed_of_mapM_eq_ok {g : Nat → Nat → Except ε Float} :
    ∀ {pairs : List (Nat × Nat)} {mixed : List (Nat × Nat × Float)},
      pairs.mapM (fun ij => (fun m => (ij.1, ij.2, m)) <$> g ij.1 ij.2) = .ok mixed →
        (∀ i j, (i, j) ∈ pairs → ∃ m, g i j = .ok m ∧ (i, j, m) ∈ mixed) ∧
          ∀ i j m, (i, j, m) ∈ mixed → g i j = .ok m
  | [], mixed, h => by
    cases h
    exact ⟨fun _ _ hp => absurd hp List.not_mem_nil, fun _ _ _ hm => absurd hm List.not_mem_nil⟩
  | (a, b) :: rest, mixed, h => by
    rw [List.mapM_cons] at h
    obtain ⟨e, he, h⟩ := bind_eq_ok.1 h
    obtain ⟨es, hes, h⟩ := bind_eq_ok.1 h
    cases h
    obtain ⟨m0, hm0, rfl⟩ := map_eq_ok.1 he
    have ih := listed_of_mapM_eq_ok hes
    constructor
    · intro i j hp
      rcases List.mem_cons.1 hp with hp | hp
      · cases hp
        exact ⟨m0, hm0, List.mem_cons_self⟩
      · obtain ⟨m, hm, hmem⟩ := ih.1 i j hp
        exact ⟨m, hm, List.mem_cons_of_mem _ hmem⟩
    · intro i j m hm
      rcases List.mem_cons.1 hm with hm | hm
      · cases hm
        exact hm0
      · exact ih.2 i j m hm

end Assemble

end Difference

open Difference

/-! ## The estimates -/

/-- A probe gives the machine's value at the probe point, or its reported failure named after
the point: of the same class, with the message `Failed to evaluate at <label>: <message>`. -/
theorem Difference.probe_of_execute (p : Bytecode Float) (site : Probe) (y : List Float) :
    (∀ v, p.execute y = .ok v → probe p site y = .ok v) ∧
      ∀ e, p.execute y = .error (.reported e) →
        probe p site y = .error (.reported (.failedAt site e)) ∧
          (EvalError.failedAt site e).errorClass = e.errorClass ∧
          (EvalError.failedAt site e).message =
            "Failed to evaluate at " ++ site.label ++ ": " ++ e.message := by
  have hy : y.map (Scalar.ofFloat : Float → Float) = y := List.map_id' y
  constructor
  · intro v hv
    rw [probe, hy, hv]
  · intro e he
    rw [probe, hy, he]
    exact ⟨rfl, rfl, rfl⟩

theorem Bytecode.gradientByDifferences_eq_mapM {p : Bytecode Float} {x : List Float} (h : Float)
    (hx : (x.length : Int) = p.arity) :
    p.gradientByDifferences h x = (List.range x.length).mapM (centralDifference p h x) := by
  rw [Bytecode.gradientByDifferences, if_neg (fun hne => hne hx), List.mapM_toFloat_float,
    Failure.lift_ok, ok_bind, gradientFrom_eq_mapM, List.range_eq_range']
  simp only [bind_map_left, bind_pure]

theorem Bytecode.hessianByDifferences_eq_formulas {p : Bytecode Float} {x : List Float}
    (h : Float) (hx : (x.length : Int) = p.arity) :
    p.hessianByDifferences h x = hessianByFormulas p h x := by
  rw [Bytecode.hessianByDifferences, if_neg (fun hne => hne hx), List.mapM_toFloat_float,
    Failure.lift_ok, ok_bind]
  simp only [diagonalFrom_eq_mapM, mixedFrom_eq_mapM, hessianByFormulas, pairsAbove,
    List.range_eq_range', bind_map_left]

/-- A Hessian estimate is square; its diagonal holds the second differences about the value at
the point, and its entries `(i, j)` and `(j, i)` for `i < j` the mixed difference of the pair. -/
theorem Bytecode.hessianByDifferences_entries {p : Bytecode Float} {h : Float} {x : List Float}
    {H : List (List Float)} (hH : p.hessianByDifferences h x = .ok H) :
    Dense.IsSquare x.length H ∧ ∃ f0 diag, probe p .base x = .ok f0 ∧
      (List.range x.length).mapM (secondDifference p h x f0) = .ok diag ∧
      (∀ i < x.length, ∃ fp d, secondDifference p h x f0 i = .ok (fp, d) ∧
        diag[i]? = some (fp, d) ∧ Dense.cell H i i = some d) ∧
      ∀ i j, i < j → j < x.length → ∃ m, mixedDifference p h x f0 (diag.map (·.1)) i j = .ok m ∧
        Dense.cell H i j = some m ∧ Dense.cell H j i = some m := by
  -- a point of the wrong length is reported before any run
  by_cases hx : (x.length : Int) = p.arity
  case neg =>
    rw [Bytecode.hessianByDifferences, if_pos hx] at hH
    cases hH
  rw [hessianByDifferences_eq_formulas h hx, hessianByFormulas] at hH
  obtain ⟨f0, hf0, hH⟩ := bind_eq_ok.1 hH
  obtain ⟨diag, hdiag, hH⟩ := bind_eq_ok.1 hH
  obtain ⟨mixed, hmixed, hH⟩ := bind_eq_ok.1 hH
  cases hH
  have hlisted := listed_of_mapM_eq_ok hmixed
  refine ⟨isSquare_assemble, f0, diag, hf0, hdiag, fun i hi => ?_, fun i j hij hj => ?_⟩
  · obtain ⟨⟨fp, d⟩, hdi, hsd⟩ := getElem?_of_mapM_eq_ok hdiag (List.getElem?_range hi)
    refine ⟨fp, d, hsd, hdi, ?_⟩
    rw [cell_assemble_diag hi, List.getD_eq_getElem?_getD, List.getElem?_map, hdi]
    rfl
  · obtain ⟨m, hm, hmem⟩ := hlisted.1 i j (mem_pairsAbove.2 ⟨hij, hj⟩)
    refine ⟨m, hm, cell_assemble_above hij hj ⟨m, hmem⟩ fun m' hm' => ?_⟩
    -- every listing of the pair is the one mixed difference of the pair
    have hm'' := hlisted.2 i j m' hm'
    rw [hm] at hm''
    cases hm''
    rfl

/-- Finite differences compute their formulas at their probe points in a fixed order. On a point
of the program's arity the gradient estimate is the central difference of each coordinate in
turn, and the Hessian estimate is the run at the point, then the second differences, then the
mixed differences in lexicographic order, the first failure ending either. A Hessian estimate
holds the second differences on its diagonal and the mixed difference of `i < j` at `(i, j)` and
at `(j, i)`. A probe gives the machine's value at its point, or its reported failure named after
the point. A point of another length is reported before any run. -/
theorem differences_follow_formulas (p : Bytecode Float) (h : Float) (x : List Float) :
    p.gradientByDifferences h x =
      (if (x.length : Int) = p.arity then (List.range x.length).mapM (centralDifference p h x)
        else Failure.report (.inputCount p.arity x.length)) ∧
    p.hessianByDifferences h x =
      (if (x.length : Int) = p.arity then hessianByFormulas p h x
        else Failure.report (.inputCount p.arity x.length)) ∧
    (∀ H, p.hessianByDifferences h x = .ok H →
      Dense.IsSquare x.length H ∧ ∃ f0 diag, probe p .base x = .ok f0 ∧
        (List.range x.length).mapM (secondDifference p h x f0) = .ok diag ∧
        (∀ i < x.length, ∃ fp d, secondDifference p h x f0 i = .ok (fp, d) ∧
          diag[i]? = some (fp, d) ∧ Dense.cell H i i = some d) ∧
        ∀ i j, i < j → j < x.length → ∃ m,
          mixedDifference p h x f0 (diag.map (·.1)) i j = .ok m ∧
          Dense.cell H i j = some m ∧ Dense.cell H j i = some m) ∧
    ∀ site y, (∀ v, p.execute y = .ok v → probe p site y = .ok v) ∧
      ∀ e, p.execute y = .error (.reported e) →
        probe p site y = .error (.reported (.failedAt site e)) ∧
          (EvalError.failedAt site e).errorClass = e.errorClass ∧
          (EvalError.failedAt site e).message =
            "Failed to evaluate at " ++ site.label ++ ": " ++ e.message := by
  refine ⟨?_, ?_, fun _ hH => Bytecode.hessianByDifferences_entries hH, probe_of_execute p⟩
  · by_cases hx : (x.length : Int) = p.arity
    · rw [if_pos hx, Bytecode.gradientByDifferences_eq_mapM h hx]
    · rw [if_neg hx, Bytecode.gradientByDifferences, if_pos hx]
  · by_cases hx : (x.length : Int) = p.arity
    · rw [if_pos hx, Bytecode.hessianByDifferences_eq_formulas h hx]
    · rw [if_neg hx, Bytecode.hessianByDifferences, if_pos hx]

/-- The program of `sqrt(-y)` in the inputs `x, y`. -/
def rootOfNegatedSecond : Bytecode Float := ⟨[.load 1, .unary .neg, .unary .sqrt, .ret], 2⟩

set_option maxRecDepth 100000 in
/-- The step `1e-170` is usable and its square is zero in doubles. The gradient of `sqrt(-y)` at
`(1, 0)` with this step reaches the run with `y` raised, which fails; the Hessian aborts at its
first diagonal entry instead of reaching that run. -/
theorem tiny_step_aborts_before_failing_probe :
    Settings.step? (.real 1e-170) = .ok (some 1e-170) ∧
    (∃ e, rootOfNegatedSecond.gradientByDifferences 1e-170 [1.0, 0.0] =
      .error (.reported (.failedAt (.plus 1) e))) ∧
    rootOfNegatedSecond.hessianByDifferences 1e-170 [1.0, 0.0] =
      .error (.aborted .zeroDivision) :=
  ⟨rfl, ⟨_, rfl⟩, rfl⟩

end ScalarDiff
