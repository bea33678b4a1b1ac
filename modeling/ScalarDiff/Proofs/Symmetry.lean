import ScalarDiff.Proofs.JetRules

/-!
# Hessians of a second-order sweep are symmetric

Every Hessian a second-order sweep builds is symmetric bit for bit, with no averaging: the jet
rules combine Hessians only by scaling, sums, differences and negation, which act entry by entry,
and add the products `d · (g ⊗ g)` and `g ⊗ h + h ⊗ g`, whose entries `(i, j)` and `(j, i)` are
computed by the same IEEE operations on the same operands in another order. IEEE sums and
products of doubles commute (`Float.add_comm`, `Float.mul_comm`, proved in Lean's logical model of
floats, where every NaN is the same value), so those entries are the same double.

The invariant is `Jet.Symmetric n`: a gradient of `n` entries and a symmetric `n × n` Hessian.
Every rule keeps it (`Jet.chain_symmetric`, `Jet.binary_symmetric`, `Jet.unary_symmetric`), so
every instruction does (`Jet.step_symmetric`), and by induction every stack of a second-order
sweep holds only such jets (`Jet.foldlM_step_symmetric`). The main statement is
`hessian_symmetric`.
-/

namespace ScalarDiff

/-! ## IEEE sums and products commute -/

section Commute

open Float.Model

theorem unpackedAdd_comm (spec : Format) (x y : UnpackedFloat) :
    UnpackedFloat.add spec x y = UnpackedFloat.add spec y x := by
  cases x with
  | notANumber => cases y <;> rfl
  | infinity s =>
    cases y with
    | infinity t => cases s <;> cases t <;> rfl
    | _ => rfl
  | zero s =>
    cases y with
    | zero t => cases s <;> cases t <;> rfl
    | _ => rfl
  | finite s m e hm =>
    cases y with
    | finite t k f hk =>
      -- both sums align the mantissas at the smaller exponent and add them as integers
      dsimp only [UnpackedFloat.add]
      rw [Int.min_comm e f, Int.add_comm]
    | _ => rfl

theorem unpackedMul_comm (spec : Format) (x y : UnpackedFloat) :
    UnpackedFloat.mul spec x y = UnpackedFloat.mul spec y x := by
  have hsign : ∀ s t : UnpackedFloat.Sign, s * t = t * s := by
    intro s t
    cases s <;> cases t <;> rfl
  cases x <;> cases y <;> dsimp only [UnpackedFloat.mul] <;>
    simp only [hsign, Nat.mul_comm, Int.add_comm]

theorem Float.add_comm (a b : Float) : a + b = b + a := by
  show Float.ofModel (Float.Model.pack _) = Float.ofModel (Float.Model.pack _)
  rw [unpackedAdd_comm]

theorem Float.mul_comm (a b : Float) : a * b = b * a := by
  show Float.ofModel (Float.Model.pack _) = Float.ofModel (Float.Model.pack _)
  rw [unpackedMul_comm]

end Commute

/-! ## Dense matrices by their entries -/

namespace Dense

/-- Entry `(i, j)` of a matrix given by its rows, if it has one. -/
def cell (m : List (List Float)) (i j : Nat) : Option Float := m[i]?.bind (·[j]?)

/-- A symmetric matrix: entries `(i, j)` and `(j, i)` are the same double, or both missing. -/
def IsSymmetric (m : List (List Float)) : Prop := ∀ i j, cell m i j = cell m j i

/-- A matrix of `n` rows of `n` entries. -/
def IsSquare (n : Nat) (m : List (List Float)) : Prop := m.length = n ∧ ∀ r ∈ m, r.length = n

theorem cell_map (f : Float → Float) (m : List (List Float)) (i j : Nat) :
    cell (m.map (·.map f)) i j = (cell m i j).map f := by
  simp only [cell, List.getElem?_map]
  cases m[i]? <;> simp

theorem cell_zipWith (f : Float → Float → Float) (m k : List (List Float)) (i j : Nat) :
    cell (List.zipWith (List.zipWith f) m k) i j =
      (cell m i j).bind fun a => (cell k i j).map (f a) := by
  simp only [cell, List.getElem?_zipWith]
  cases m[i]? with
  | none => cases k[i]? <;> rfl
  | some r =>
    cases k[i]? with
    | none =>
      simp only [Option.bind_some, Option.bind_none]
      cases r[j]? <;> rfl
    | some t =>
      simp only [Option.bind_some, List.getElem?_zipWith]
      cases r[j]? <;> cases t[j]? <;> rfl

theorem cell_outer (g h : List Float) (i j : Nat) :
    cell (outer g h) i j = g[i]?.bind fun a => h[j]?.map (a * ·) := by
  simp only [cell, outer, List.getElem?_map]
  cases g[i]? <;> simp

theorem cell_zeros (n i j : Nat) :
    cell (List.replicate n (zeros n)) i j = if i < n ∧ j < n then some 0.0 else none := by
  simp only [cell, zeros, List.getElem?_replicate]
  by_cases hi : i < n <;> by_cases hj : j < n <;> simp [hi, hj]

theorem isSymmetric_zeros (n : Nat) : IsSymmetric (List.replicate n (zeros n)) := by
  intro i j
  simp only [cell_zeros, And.comm]

theorem IsSymmetric.scaleRows {m : List (List Float)} (hm : IsSymmetric m) (s : Float) :
    IsSymmetric (scaleRows s m) := by
  intro i j
  show cell (m.map (·.map (s * ·))) i j = cell (m.map (·.map (s * ·))) j i
  rw [cell_map, cell_map, hm]

theorem IsSymmetric.neg {m : List (List Float)} (hm : IsSymmetric m) :
    IsSymmetric (m.map (·.map (- ·))) := by
  intro i j
  rw [cell_map, cell_map, hm]

theorem IsSymmetric.zipWith {m k : List (List Float)} (hm : IsSymmetric m) (hk : IsSymmetric k)
    (f : Float → Float → Float) : IsSymmetric (List.zipWith (List.zipWith f) m k) := by
  intro i j
  rw [cell_zipWith, cell_zipWith, hm, hk]

theorem IsSymmetric.plusRows {m k : List (List Float)} (hm : IsSymmetric m)
    (hk : IsSymmetric k) : IsSymmetric (plusRows m k) :=
  hm.zipWith hk (· + ·)

/-- `g ⊗ g` is symmetric: its entries `(i, j)` and `(j, i)` are `gᵢ · gⱼ` and `gⱼ · gᵢ`. -/
theorem isSymmetric_outer_self (g : List Float) : IsSymmetric (outer g g) := by
  intro i j
  simp only [cell_outer]
  cases g[i]? <;> cases g[j]? <;> simp [Float.mul_comm]

/-- `g ⊗ h + h ⊗ g` is symmetric: its entry `(i, j)` is `gᵢ · hⱼ + hᵢ · gⱼ`, and its entry
`(j, i)` is `gⱼ · hᵢ + hⱼ · gᵢ`, the same two products added the other way round. -/
theorem isSymmetric_outer_sum (g h : List Float) :
    IsSymmetric (plusRows (outer g h) (outer h g)) := by
  intro i j
  show cell (List.zipWith (List.zipWith (· + ·)) (outer g h) (outer h g)) i j =
    cell (List.zipWith (List.zipWith (· + ·)) (outer g h) (outer h g)) j i
  simp only [cell_zipWith, cell_outer]
  cases g[i]? <;> cases g[j]? <;> cases h[i]? <;> cases h[j]? <;>
    simp [Float.mul_comm, Float.add_comm]

/-! ### Shapes -/

theorem isSquare_zeros (n : Nat) : IsSquare n (List.replicate n (zeros n)) := by
  refine ⟨List.length_replicate, fun r hr => ?_⟩
  rw [List.eq_of_mem_replicate hr, zeros, List.length_replicate]

theorem IsSquare.map {n : Nat} {m : List (List Float)} (hm : IsSquare n m) (f : Float → Float) :
    IsSquare n (m.map (·.map f)) := by
  refine ⟨by rw [List.length_map, hm.1], fun r hr => ?_⟩
  obtain ⟨r', hr', rfl⟩ := List.mem_map.1 hr
  rw [List.length_map, hm.2 r' hr']

theorem IsSquare.zipWith {n : Nat} {m k : List (List Float)} (hm : IsSquare n m)
    (hk : IsSquare n k) (f : Float → Float → Float) :
    IsSquare n (List.zipWith (List.zipWith f) m k) := by
  refine ⟨by rw [List.length_zipWith, hm.1, hk.1, Nat.min_self], fun r hr => ?_⟩
  obtain ⟨i, hi⟩ := List.mem_iff_getElem?.1 hr
  obtain ⟨u, v, hu, hv, rfl⟩ := List.getElem?_zipWith_eq_some.1 hi
  rw [List.length_zipWith, hm.2 u (List.mem_of_getElem? hu), hk.2 v (List.mem_of_getElem? hv),
    Nat.min_self]

theorem isSquare_outer {n : Nat} {g h : List Float} (hg : g.length = n) (hh : h.length = n) :
    IsSquare n (outer g h) := by
  refine ⟨by rw [outer, List.length_map, hg], fun r hr => ?_⟩
  obtain ⟨a, -, rfl⟩ := List.mem_map.1 hr
  rw [List.length_map, hh]

end Dense

/-! ## The invariant of a second-order sweep -/

namespace Jet

/-- A jet of a second-order sweep over `n` inputs: a gradient of `n` entries and a symmetric
`n × n` Hessian. -/
structure Symmetric (n : Nat) (J : DenseJet) : Prop where
  grad_length : J.grad.length = n
  hess : ∃ H, J.hess = some H ∧ Dense.IsSquare n H ∧ Dense.IsSymmetric H

variable {n : Nat}

theorem const_symmetric (c : Float) : (Jet.const n true c : DenseJet).Symmetric n :=
  ⟨List.length_replicate, _, rfl, Dense.isSquare_zeros n, Dense.isSymmetric_zeros n⟩

theorem input_symmetric (i : Nat) (v : Float) : (Jet.input n true i v : DenseJet).Symmetric n :=
  ⟨by simp [Jet.input, Tangent.unitGrad, Dense.unit], _, rfl, Dense.isSquare_zeros n,
    Dense.isSymmetric_zeros n⟩

theorem chain_symmetric {a J : DenseJet} (ha : a.Symmetric n) {v d1 d2 : Float}
    (h : Jet.chain a v d1 d2 = .ok J) : J.Symmetric n := by
  rw [chain_dense] at h
  cases h
  obtain ⟨H, hH, hsq, hsym⟩ := ha.hess
  refine ⟨by rw [Dense.scale, List.length_map, ha.grad_length], _, by rw [hH]; rfl, ?_, ?_⟩
  · exact (hsq.map _).zipWith ((Dense.isSquare_outer ha.grad_length ha.grad_length).map _) _
  · exact (hsym.scaleRows d1).plusRows (Dense.isSymmetric_outer_self a.grad |>.scaleRows d2)

/-- Jets combined entry by entry, in their gradients and in their Hessians, stay symmetric. -/
theorem zipWith_symmetric {a b : DenseJet} (ha : a.Symmetric n) (hb : b.Symmetric n) (v : Float)
    (f : Float → Float → Float) :
    (⟨v, List.zipWith f a.grad b.grad,
      a.hess.bind fun h => b.hess.map (List.zipWith (List.zipWith f) h)⟩ : DenseJet).Symmetric n := by
  obtain ⟨H, hH, hsq, hsym⟩ := ha.hess
  obtain ⟨K, hK, ksq, ksym⟩ := hb.hess
  refine ⟨?_, _, by rw [hH, hK]; rfl, hsq.zipWith ksq f, hsym.zipWith ksym f⟩
  rw [List.length_zipWith, ha.grad_length, hb.grad_length, Nat.min_self]

theorem add_symmetric {a b J : DenseJet} (ha : a.Symmetric n) (hb : b.Symmetric n)
    (h : Jet.add a b = .ok J) : J.Symmetric n := by
  rw [add_dense] at h
  cases h
  exact zipWith_symmetric ha hb _ (· + ·)

theorem sub_symmetric {a b J : DenseJet} (ha : a.Symmetric n) (hb : b.Symmetric n)
    (h : Jet.sub a b = .ok J) : J.Symmetric n := by
  rw [sub_dense] at h
  cases h
  exact zipWith_symmetric ha hb _ (· - ·)

theorem mul_symmetric {a b J : DenseJet} (ha : a.Symmetric n) (hb : b.Symmetric n)
    (h : Jet.mul a b = .ok J) : J.Symmetric n := by
  rw [mul_dense] at h
  cases h
  obtain ⟨H, hH, hsq, hsym⟩ := ha.hess
  obtain ⟨K, hK, ksq, ksym⟩ := hb.hess
  have hg := ha.grad_length
  have hk := hb.grad_length
  refine ⟨?_, _, by rw [hH, hK]; rfl, ?_, ?_⟩
  · simp only [Dense.plus, Dense.scale, List.length_zipWith, List.length_map, hg, hk,
      Nat.min_self]
  · exact ((hsq.map _).zipWith (ksq.map _) _).zipWith
      ((Dense.isSquare_outer hg hk).zipWith (Dense.isSquare_outer hk hg) _) _
  · exact ((hsym.scaleRows _).plusRows (ksym.scaleRows _)).plusRows
      (Dense.isSymmetric_outer_sum a.grad b.grad)

theorem neg_symmetric {a J : DenseJet} (ha : a.Symmetric n) (h : Jet.neg a = .ok J) :
    J.Symmetric n := by
  rw [neg_dense] at h
  cases h
  obtain ⟨H, hH, hsq, hsym⟩ := ha.hess
  exact ⟨by rw [List.length_map, ha.grad_length], _, by rw [hH]; rfl, hsq.map _, hsym.neg⟩

/-- A quotient is a product with a reciprocal, which the chain rule computes. -/
theorem div_symmetric {a b J : DenseJet} (ha : a.Symmetric n) (hb : b.Symmetric n)
    (h : Jet.div a b = .ok J) : J.Symmetric n := by
  obtain ⟨r, d1, d2, R, Q, v, hR, hQ, rfl⟩ := div_eq_ok h
  have hQs := mul_symmetric ha (chain_symmetric hb hR) hQ
  exact ⟨hQs.grad_length, hQs.hess⟩

theorem pow_symmetric {a b J : DenseJet} (ha : a.Symmetric n) (hb : b.Symmetric n)
    (h : Jet.pow a b = .ok J) : J.Symmetric n := by
  rcases pow_eq_ok h with ⟨v, d1, d2, hJ⟩ | ⟨l, d1, d2, L, P, v, hL, hP, hJ⟩
  · exact chain_symmetric ha hJ
  · exact chain_symmetric (mul_symmetric hb (chain_symmetric ha hL) hP) hJ

theorem binary_symmetric {a b J : DenseJet} (ha : a.Symmetric n) (hb : b.Symmetric n)
    {op : BinOp} (h : Jet.binary op a b = .ok J) : J.Symmetric n := by
  cases op with
  | add => exact add_symmetric ha hb h
  | sub => exact sub_symmetric ha hb h
  | mul => exact mul_symmetric ha hb h
  | div => exact div_symmetric ha hb h
  | pow => exact pow_symmetric ha hb h

theorem unary_symmetric {a J : DenseJet} (ha : a.Symmetric n) {op : UnOp}
    (h : Jet.unary op a = .ok J) : J.Symmetric n := by
  rcases unary_eq_ok h with hJ | ⟨v, d1, d2, hJ⟩
  · exact neg_symmetric ha hJ
  · exact chain_symmetric ha hJ

/-! ## One instruction, and a whole sweep -/

variable {x : List Float}

/-- One instruction of a second-order sweep keeps every jet on the stack symmetric. -/
theorem step_symmetric {js js' : List DenseJet} (hjs : ∀ J ∈ js, J.Symmetric n)
    {i : Instr Float} (h : Jet.step n true x js i = .ok js') : ∀ J ∈ js', J.Symmetric n := by
  cases i with
  | push c =>
    cases h
    exact List.forall_mem_cons.2 ⟨const_symmetric c, hjs⟩
  | load k =>
    simp only [Jet.step] at h
    split at h
    · cases h
      exact List.forall_mem_cons.2 ⟨input_symmetric _ _, hjs⟩
    · cases h
  | binary op =>
    simp only [Jet.step] at h
    split at h
    · obtain ⟨J, hJ, rfl⟩ := map_eq_ok.1 h
      obtain ⟨hb, ha, hrest⟩ : _ ∧ _ ∧ _ := by simpa using hjs
      exact List.forall_mem_cons.2 ⟨binary_symmetric ha hb hJ, hrest⟩
    · cases h
  | unary op =>
    simp only [Jet.step] at h
    split at h
    · obtain ⟨J, hJ, rfl⟩ := map_eq_ok.1 h
      obtain ⟨ha, hrest⟩ := List.forall_mem_cons.1 hjs
      exact List.forall_mem_cons.2 ⟨unary_symmetric ha hJ, hrest⟩
    · cases h
  | ret =>
    cases h
    exact hjs

/-- Instructions run one after another keep every jet on the stack symmetric. -/
theorem foldlM_step_symmetric (code : List (Instr Float)) {js js' : List DenseJet}
    (hjs : ∀ J ∈ js, J.Symmetric n) (h : code.foldlM (Jet.step n true x) js = .ok js') :
    ∀ J ∈ js', J.Symmetric n := by
  induction code generalizing js with
  | nil =>
    cases h
    exact hjs
  | cons i rest ih =>
    rw [List.foldlM_cons] at h
    obtain ⟨js1, h1, h⟩ := bind_eq_ok.1 h
    exact ih (step_symmetric hjs h1) h

/-- The jet a second-order sweep returns is symmetric. -/
theorem sweep_symmetric (code : List (Instr Float)) {js : List DenseJet} {J : DenseJet}
    (hjs : ∀ J ∈ js, J.Symmetric n) (h : Jet.sweep n true x code js = .ok J) :
    J.Symmetric n := by
  induction code generalizing js with
  | nil => cases h
  | cons i rest ih =>
    by_cases hi : i = .ret
    · subst hi
      -- `RETURN` hands back the one jet on the stack, or fails
      rcases js with _ | ⟨j, _ | ⟨k, more⟩⟩
      · cases h
      · simp only [Jet.sweep, Tangent.gradFinite, Failure.lift_ok, ok_bind] at h
        split at h
        · cases h
          exact hjs _ (List.mem_singleton_self _)
        · cases h
      · cases h
    · rw [Jet.sweep_cons_of_ne_ret n true x hi] at h
      obtain ⟨js1, h1, h⟩ := bind_eq_ok.1 h
      exact ih (step_symmetric hjs h1) h

end Jet

/-- The forward-mode Hessian is symmetric bit for bit. Every jet on the stack of a second-order
sweep, after any number of instructions, has a gradient of one entry per input and a symmetric
square Hessian of one row and one column per input; and a Hessian the sweep returns has one row
and one column per variable of the program, with entries `(i, j)` and `(j, i)` the same double. -/
theorem hessian_symmetric (p : Bytecode Float) (x : List Float) :
    (∀ k (js : List DenseJet), (p.code.take k).foldlM (Jet.step x.length true x) [] = .ok js →
      ∀ J ∈ js, J.Symmetric x.length) ∧
    ∀ H, (p.hessian x : Except Failure (List (List Float))) = .ok H →
      (x.length : Int) = p.arity ∧ Dense.IsSquare x.length H ∧ Dense.IsSymmetric H := by
  have hempty : ∀ J ∈ ([] : List DenseJet), J.Symmetric x.length := by simp
  refine ⟨fun k js h => Jet.foldlM_step_symmetric _ hempty h, fun H h => ?_⟩
  unfold Bytecode.hessian Bytecode.jet at h
  split at h
  · cases h
  · rename_i harity
    obtain ⟨J, hJ, h⟩ := bind_eq_ok.1 h
    obtain ⟨G, hG, hsq, hsym⟩ := (Jet.sweep_symmetric _ hempty hJ).hess
    simp only [hG, Option.getD_some, Tangent.hessReal_float, Tangent.hessFinite_float,
      Failure.lift_ok, ok_bind] at h
    split at h
    · cases h
      exact ⟨by simpa using harity, hsq, hsym⟩
    · cases h

/-- The Hessian of `x * y` at `(1, 2)` is the square with `1` off its diagonal. -/
theorem product_hessian_symmetric :
    (productOfInputs.hessian [1.0, 2.0] : Except Failure (List (List Float))) =
      .ok [[0.0, 1.0], [1.0, 0.0]] ∧
    (([1.0, 2.0] : List Float).length : Int) = productOfInputs.arity ∧
      Dense.IsSquare 2 [[0.0, 1.0], [1.0, 0.0]] ∧ Dense.IsSymmetric [[0.0, 1.0], [1.0, 0.0]] := by
  have hH : (productOfInputs.hessian [1.0, 2.0] : Except Failure (List (List Float))) =
      .ok [[0.0, 1.0], [1.0, 0.0]] := by rfl
  exact ⟨hH, (hessian_symmetric productOfInputs [1.0, 2.0]).2 _ hH⟩

end ScalarDiff
