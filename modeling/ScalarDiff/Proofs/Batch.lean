import ScalarDiff.Proofs.Aborts
import ScalarDiff.Session.Program

/-!
# Batches evaluate their points in order and keep what they wrote

A batch reads its columns as an array of doubles, checks the array, the point count and the output
buffer, and only then runs the points `0, 1, …` in order, point `i` being the `i`-th entry of every
column. Each value is written at its index as soon as it is computed; the first point that fails
stops the batch, which reports that failure at its index. So the buffer ends with the values of the
points before the stop at their indices and every other slot as it was (`Batch.Written`).

The checks refuse with a shape failure, before any point runs, exactly when the inputs are not
acceptable (`Batch.Accepts`): columns that are no array of doubles with one row per variable, a
count that is no integer, is negative or, for a program with variables, exceeds the columns, and a
buffer with fewer slots than points. A program without variables takes any array without entries
as no columns of no points, so it accepts `[[]]` or `[[], []]` and runs as many points as the count
says. Apart from these answers a batch can only abort, and only while reading its inputs: on an
integer beyond every double among the columns, or when the fresh buffer of NaN for the count cannot
be made.
-/

namespace ScalarDiff

/-! ## Arrays read from nested data -/

namespace Datum

/-- An entry that reads as a double is no list, so it has no dimensions. -/
theorem dims_of_asEntry {d : Datum} {x : Float} (h : d.asEntry = .ok x) : d.dims? = some [] := by
  cases d with
  | list items => cases h
  | _ => rfl

theorem leaves_of_asEntry {d : Datum} {x : Float} (h : d.asEntry = .ok x) : d.leaves = [d] := by
  cases d with
  | list items => cases h
  | _ => rfl

theorem asEntry_real (x : Float) : (Datum.real x).asEntry = .ok x := rfl

end Datum

namespace Datum

mutual

/-- Nested data holds as many entries as the product of its dimensions. -/
theorem leaves_length : ∀ (d : Datum) {s : List Nat}, d.dims? = some s →
    d.leaves.length = s.foldr (· * ·) 1
  | .list items, s, h => by
    rw [dims?] at h
    cases hs : itemDims? items with
    | none =>
      rw [hs] at h
      cases h
    | some shapes =>
      rw [hs] at h
      simp only [Option.bind_eq_bind, Option.bind_some] at h
      cases shapes with
      | nil =>
        cases h
        rw [leaves]
        simpa using itemLeaves_length items hs (s := [0]) (by simp)
      | cons t rest =>
        dsimp only at h
        split at h
        · next hall =>
          cases h
          rw [leaves, itemLeaves_length items hs (s := t) ?_]
          · rfl
          · intro u hu
            rcases List.mem_cons.1 hu with rfl | hu
            · rfl
            · simpa using List.all_eq_true.1 hall u hu
        · cases h
  | .none, _, h | .bool _, _, h | .int _, _, h | .real _, _, h | .text _, _, h | .dict _, _, h => by
    cases h
    rfl

/-- The items of a list whose shapes are all `s` hold as many entries as there are items times
the product of `s`. -/
theorem itemLeaves_length : ∀ (items : List Datum) {ss : List (List Nat)} {s : List Nat},
    itemDims? items = some ss → (∀ t ∈ ss, t = s) →
    (itemLeaves items).length = items.length * s.foldr (· * ·) 1
  | [], _, _, _, _ => by simp [itemLeaves]
  | d :: ds, ss, s, h, hall => by
    rw [itemDims?] at h
    cases hd : dims? d with
    | none =>
      rw [hd] at h
      cases h
    | some sd =>
      rw [hd] at h
      cases hds : itemDims? ds with
      | none =>
        rw [hds] at h
        cases h
      | some ss' =>
        rw [hds] at h
        cases h
        have hsd : sd = s := hall sd (by simp)
        subst hsd
        rw [itemLeaves, List.length_append, leaves_length d hd,
          itemLeaves_length ds hds fun t ht => hall t (by simp [ht]), List.length_cons,
          Nat.add_mul, Nat.one_mul]
        omega

end

end Datum

namespace Grid

/-- Entries are read as doubles exactly when each of them is. -/
theorem readEntries_eq_some {ds : List Datum} {xs : List Float} :
    readEntries ds = .ok (some xs) ↔ ds.mapM Datum.asEntry = .ok xs := by
  induction ds generalizing xs with
  | nil =>
    simp only [readEntries, List.mapM_nil]
    constructor <;> intro h <;> cases h <;> rfl
  | cons d ds ih =>
    rw [readEntries, List.mapM_cons]
    cases hd : d.asEntry with
    | error a =>
      constructor
      · cases a <;> intro h <;> cases h
      · intro h
        cases h
    | ok x =>
      dsimp only
      cases hr : ds.mapM Datum.asEntry with
      | error a =>
        constructor
        · intro h
          cases hrest : readEntries ds with
          | error b => rw [hrest] at h; cases h
          | ok rest =>
            rw [hrest] at h
            cases rest with
            | none => cases h
            | some ys =>
              rw [ih.1 hrest] at hr
              cases hr
        · intro h
          cases h
      | ok ys =>
        rw [ih.2 hr]
        constructor <;> intro h <;> cases h <;> rfl

end Grid

/-- Reading every item of a list keeps their number. -/
theorem length_of_mapM {ε α β : Type} {f : α → Except ε β} {xs : List α} {ys : List β}
    (h : xs.mapM f = .ok ys) : ys.length = xs.length := by
  induction xs generalizing ys with
  | nil =>
    cases h
    rfl
  | cons x xs ih =>
    rw [List.mapM_cons] at h
    obtain ⟨y, -, h⟩ := bind_eq_ok.1 h
    obtain ⟨ys', hys', h⟩ := bind_eq_ok.1 h
    cases h
    simp [ih hys']

namespace Datum

/-- A flat list of entries that read as doubles is one-dimensional and is its own entries. -/
theorem dims_flat {items : List Datum} {xs : List Float} (h : items.mapM asEntry = .ok xs) :
    (Datum.list items).dims? = some [items.length] ∧ (Datum.list items).leaves = items := by
  have hitems : itemDims? items = some (List.replicate items.length []) ∧ itemLeaves items = items := by
    induction items generalizing xs with
    | nil => exact ⟨rfl, rfl⟩
    | cons d ds ih =>
      rw [List.mapM_cons] at h
      obtain ⟨x, hx, h⟩ := bind_eq_ok.1 h
      obtain ⟨xs', hxs', -⟩ := bind_eq_ok.1 h
      obtain ⟨hds, hleaves⟩ := ih hxs'
      refine ⟨?_, ?_⟩
      · rw [itemDims?, dims_of_asEntry hx, hds]
        rfl
      · rw [itemLeaves, leaves_of_asEntry hx, hleaves]
        rfl
  refine ⟨?_, by rw [leaves, hitems.2]⟩
  rw [dims?, hitems.1]
  cases items with
  | nil => rfl
  | cons d ds => simp [List.replicate_succ, List.all_eq_true]

/-- A list of doubles reads as the one-dimensional array of them. -/
theorem mapM_asEntry_reals (xs : List Float) : (xs.map Datum.real).mapM asEntry = .ok xs := by
  induction xs with
  | nil => rfl
  | cons x xs ih =>
    rw [List.map_cons, List.mapM_cons, asEntry_real, ok_bind, ih]
    rfl

theorem toGrid_reals (xs : List Float) :
    (Datum.list (xs.map .real)).toGrid = .ok (some ⟨[xs.length], xs⟩) := by
  have hread := mapM_asEntry_reals xs
  obtain ⟨hdims, hleaves⟩ := dims_flat hread
  rw [toGrid, hdims, hleaves, (Grid.readEntries_eq_some).2 hread]
  simp [Grid.maxDims]

/-- An array read from nested data is as deep as the data and holds as many entries as its
dimensions say. -/
theorem toGrid_entries {d : Datum} {g : Grid} (h : d.toGrid = .ok (some g)) :
    d.dims? = some g.dims ∧ g.entries.length = g.dims.foldr (· * ·) 1 := by
  unfold toGrid at h
  split at h
  · cases h
  · next dims hdims =>
    split at h
    · cases h
    · obtain ⟨entries, hentries, h⟩ := bind_eq_ok.1 h
      cases entries with
      | none => cases h
      | some xs =>
        cases h
        refine ⟨hdims, ?_⟩
        rw [length_of_mapM ((Grid.readEntries_eq_some).1 hentries)]
        exact leaves_length d hdims

end Datum

/-- A point read as a flat list of doubles is evaluated as that list. -/
theorem Program.evaluate_reals (p : Program) (xs : List Float) :
    p.evaluate (.list (xs.map .real)) = p.code.execute xs := by
  simp [Program.evaluate, Program.pointOf, Datum.toGrid_reals]

/-- Every row of an array with `rows · width` entries has an entry at each index below `width`,
so every such point of the batch exists; an array without rows has the empty point everywhere. -/
theorem Grid.pointAt_rows {g : Grid} {rows width i : Nat} (hlen : g.entries.length = rows * width)
    (hi : i < width ∨ rows = 0) : ∃ pt, Batch.pointAt? (g.rows rows width) i = some pt := by
  -- each row is one stretch of `width` entries
  have hrow : ∀ r ∈ g.rows rows width, ∃ x, r[i]? = some x := by
    intro r hr
    obtain ⟨v, hv, rfl⟩ := List.mem_map.1 hr
    have hv : v < rows := List.mem_range.1 hv
    rcases hi with hi | rfl
    · have hroom : i < g.entries.length - v * width := by
        have : (v + 1) * width ≤ rows * width := Nat.mul_le_mul_right width hv
        rw [Nat.add_mul, Nat.one_mul] at this
        omega
      exact ⟨_, List.getElem?_eq_getElem (by simp; omega)⟩
    · omega
  unfold Batch.pointAt?
  generalize g.rows rows width = rs at hrow
  induction rs with
  | nil => exact ⟨[], rfl⟩
  | cons r rs ih =>
    obtain ⟨x, hx⟩ := hrow r (by simp)
    obtain ⟨pt, hpt⟩ := ih fun r' hr' => hrow r' (by simp [hr'])
    exact ⟨x :: pt, by simp [List.mapM_cons, hx, hpt]⟩

/-! ## The run over the points -/

namespace Batch

/-- A run over the points from `start` to `start + count`, point `i` being `points i`, into slots
that were `slots`: for some `j`, the points from `start` to `j` all have a value, written at their
index; every other slot is as it was; and either the run reached `start + count`, or point `j`
failed and the run stopped with that failure at index `j`. -/
def WrittenFrom (value : List Float → Except Failure Float) (points : Nat → Option (List Float))
    (start count : Nat) (slots filled : List Datum) (stop : Option EvalError) : Prop :=
  ∃ j, start ≤ j ∧ j ≤ start + count ∧ filled.length = slots.length ∧
    (∀ i, start ≤ i → i < j →
      ∃ pt v, points i = some pt ∧ value pt = .ok v ∧ filled[i]? = some (.real v)) ∧
    (∀ i, i < start ∨ j ≤ i → filled[i]? = slots[i]?) ∧
    (j = start + count ∧ stop = none ∨
      j < start + count ∧ ∃ pt e, points j = some pt ∧ value pt = .error (.reported e) ∧
        stop = some (.atPoint j e))

/-- What a batch over `count` points leaves when its buffer had the slots `slots`: the buffer a run
from point `0` filled, and the failure it stopped at, if any. -/
def Written (value : List Float → Except Failure Float) (points : Nat → Option (List Float))
    (count : Nat) (slots : List Datum) (r : BatchResult) : Prop :=
  ∃ filled stop, WrittenFrom value points 0 count slots filled stop ∧
    (stop = none ∧ r = .finished (.list filled) ∨ ∃ e, stop = some e ∧ r = .stopped e (.list filled))

/-- A run that evaluates nothing more leaves the slots as they were. -/
theorem WrittenFrom.here {value : List Float → Except Failure Float}
    {points : Nat → Option (List Float)} {start count : Nat} {slots : List Datum}
    {stop : Option EvalError}
    (hstop : count = 0 ∧ stop = none ∨ 0 < count ∧ ∃ pt e, points start = some pt ∧
      value pt = .error (.reported e) ∧ stop = some (.atPoint start e)) :
    WrittenFrom value points start count slots slots stop := by
  refine ⟨start, Nat.le_refl _, by omega, rfl, fun i h₁ h₂ => by omega, fun _ _ => rfl, ?_⟩
  rcases hstop with ⟨rfl, rfl⟩ | ⟨hc, h⟩
  · exact .inl ⟨rfl, rfl⟩
  · exact .inr ⟨by omega, h⟩

/-- A run whose first point has a value continues, one slot further, from the buffer with that
value written at its index. -/
theorem WrittenFrom.cons {value : List Float → Except Failure Float}
    {points : Nat → Option (List Float)} {start count : Nat} {slots filled : List Datum}
    {stop : Option EvalError} {pt : List Float} {v : Float} (hpt : points start = some pt)
    (hv : value pt = .ok v) (hstart : start < slots.length)
    (h : WrittenFrom value points (start + 1) count (slots.set start (.real v)) filled stop) :
    WrittenFrom value points start (count + 1) slots filled stop := by
  obtain ⟨j, hj₁, hj₂, hlen, hvals, hsame, hstop⟩ := h
  -- the slot at `start` is outside the later run, so it keeps the value just written
  have hslot : ∀ i, i ≠ start → (slots.set start (.real v))[i]? = slots[i]? := fun i hi => by
    rw [List.getElem?_set, if_neg (Ne.symm hi)]
  refine ⟨j, by omega, by omega, by rw [hlen, List.length_set], ?_, ?_, ?_⟩
  · intro i h₁ h₂
    rcases Nat.eq_or_lt_of_le h₁ with heq | h₁
    · subst heq
      refine ⟨pt, v, hpt, hv, ?_⟩
      rw [hsame start (.inl (Nat.lt_succ_self start)), List.getElem?_set, if_pos rfl,
        if_pos hstart]
    · exact hvals i h₁ h₂
  · intro i hi
    rw [hsame i (by omega), hslot i (by omega)]
  · rcases hstop with ⟨hj, hs⟩ | ⟨hj, hs⟩
    · exact .inl ⟨by omega, hs⟩
    · exact .inr ⟨by omega, hs⟩

end Batch

section Run

variable (p : Bytecode Float) (rows : List (List Float))

/-- The run of a batch over `left` points from `start`, into a list with a slot for each, whose
points all exist: it ends with a filled list, written as `Batch.WrittenFrom` says, and never
aborts. -/
theorem Bytecode.fillFrom_written :
    ∀ (left start : Nat) (slots : List Datum),
      (∀ i, start ≤ i → i < start + left → ∃ pt, Batch.pointAt? rows i = some pt) →
      start + left ≤ slots.length →
      ∃ filled stop, p.fillFrom rows (fun (b : Datum) (i : Nat) (v : Float) => b.setItem i (.real v))
        start left (.list slots) = .ok (.list filled, stop) ∧
        Batch.WrittenFrom p.execute (Batch.pointAt? rows) start left slots filled stop
  | 0, start, slots, _, _ =>
    ⟨slots, none, rfl, Batch.WrittenFrom.here (.inl ⟨rfl, rfl⟩)⟩
  | left + 1, start, slots, hpts, hlen => by
    obtain ⟨pt, hpt⟩ := hpts start (Nat.le_refl _) (by omega)
    rw [Bytecode.fillFrom, hpt]
    dsimp only
    cases hrun : p.execute pt with
    | error f =>
      cases f with
      | reported e =>
        exact ⟨slots, some (.atPoint start e), rfl,
          Batch.WrittenFrom.here (.inr ⟨by omega, pt, e, hpt, hrun, rfl⟩)⟩
      | aborted a => exact absurd hrun (Bytecode.execute_float_ne_aborted p pt a)
    | ok v =>
      -- the value goes into its slot, and the run goes on from the next point
      have hstore : (Datum.list slots).setItem start (.real v) =
          .ok (.list (slots.set start (.real v))) := by
        simp [Datum.setItem, show start < slots.length by omega]
      obtain ⟨filled, stop, hfill, hw⟩ := Bytecode.fillFrom_written left (start + 1)
        (slots.set start (.real v)) (fun i h₁ h₂ => hpts i (by omega) (by omega))
        (by rw [List.length_set]; omega)
      refine ⟨filled, stop, ?_, hw.cons hpt hrun (by omega)⟩
      simp only [hstore]
      exact hfill

/-- A batch with one row per variable runs from point `0`. -/
theorem Bytecode.fill_written (hrows : (rows.length : Int) = p.arity) {k : Nat}
    {slots : List Datum} (hpts : ∀ i < k, ∃ pt, Batch.pointAt? rows i = some pt)
    (hk : k ≤ slots.length) :
    ∃ filled stop, p.fill rows k (fun (b : Datum) (i : Nat) (v : Float) => b.setItem i (.real v))
        (.list slots) = .ok (.list filled, stop) ∧
      Batch.WrittenFrom p.execute (Batch.pointAt? rows) 0 k slots filled stop := by
  rw [Bytecode.fill, if_neg (by omega)]
  exact p.fillFrom_written rows k 0 slots (fun i _ hi => hpts i (by omega)) (by omega)

end Run

/-! ## The checks before the run -/

namespace Batch

/-- What a batch over `n` variables accepts, read as the array `g` of its columns, `width` points
long, the number `k` of points to run and the slots of the buffer to write: the columns are an
array of doubles with one row per variable, except that without variables an array without
entries counts as no rows of no points; the count is the width when none is given, else an
integer, not negative and, with variables, at most the width; the buffer is a fresh one of `k`
NaN slots when none is given, else a list with at least `k` slots. -/
def Accepts (n : Int) (columns count out : Datum) (g : Grid) (width k : Nat)
    (slots : List Datum) : Prop :=
  columns.toGrid = .ok (some g) ∧
  (g.size = 0 ∧ n = 0 ∧ width = 0 ∨ ¬(g.size = 0 ∧ n = 0) ∧ g.dims = [n.toNat, width] ∧ 0 ≤ n) ∧
  (count = .none ∧ k = width ∨
    ∃ c : Int, count.asCount? = some c ∧ 0 ≤ c ∧ (0 < n → c ≤ width) ∧ k = c.toNat) ∧
  (out = .none ∧ slots = List.replicate k (.real (0.0 / 0.0)) ∨ out = .list slots ∧ k ≤ slots.length)

end Batch

namespace Batch

/-- The shape an accepted array is taken as: two dimensions, one row per variable, or none of
either for an array without entries when there are no variables. -/
theorem shape_iff {g : Grid} {n : Int} {width : Nat} :
    ((if g.size = 0 ∧ n = 0 then [0, 0] else g.dims) = [n.toNat, width] ∧ 0 ≤ n) ↔
      (g.size = 0 ∧ n = 0 ∧ width = 0 ∨
        ¬(g.size = 0 ∧ n = 0) ∧ g.dims = [n.toNat, width] ∧ 0 ≤ n) := by
  by_cases hempty : g.size = 0 ∧ n = 0
  · rw [if_pos hempty]
    obtain ⟨hs, rfl⟩ := hempty
    simp [hs, eq_comm]
  · rw [if_neg hempty]
    constructor
    · intro h
      exact .inr ⟨hempty, h⟩
    · rintro (⟨hs, hn, -⟩ | ⟨-, h⟩)
      · exact absurd ⟨hs, hn⟩ hempty
      · exact h

/-- The rows of an accepted array hold all its entries. -/
theorem Accepts.entries {n : Int} {columns count out : Datum} {g : Grid} {width k : Nat}
    {slots : List Datum} (hacc : Accepts n columns count out g width k slots) :
    g.entries.length = n.toNat * width := by
  obtain ⟨hgrid, hshape, -⟩ := hacc
  rcases hshape with ⟨hsize, rfl, rfl⟩ | ⟨-, hdims, -⟩
  · exact hsize
  · have := (Datum.toGrid_entries hgrid).2
    rw [hdims] at this
    simpa using this

/-- Every point an accepted batch runs exists. -/
theorem Accepts.points {n : Int} {columns count out : Datum} {g : Grid} {width k : Nat}
    {slots : List Datum} (hacc : Accepts n columns count out g width k slots) {i : Nat}
    (hi : i < k) : ∃ pt, pointAt? (g.rows n.toNat width) i = some pt := by
  refine Grid.pointAt_rows hacc.entries ?_
  obtain ⟨-, hshape, hcount, -⟩ := hacc
  -- with variables the count is at most the width; without, there are no rows
  by_cases hn : n = 0
  · exact .inr (by simp [hn])
  · left
    rcases hcount with ⟨-, rfl⟩ | ⟨c, -, hc0, hcw, rfl⟩
    · exact hi
    · rcases hshape with ⟨-, hn', -⟩ | ⟨-, -, hn0⟩
      · exact absurd hn' hn
      · have := hcw (by omega)
        omega

end Batch

/-- A fresh buffer, when it can be made, is `count` slots of NaN. -/
theorem Program.nanArray_eq_ok {count : Nat} {buf : Datum} (h : Program.nanArray count = .ok buf) :
    buf = .list (List.replicate count (.real (0.0 / 0.0))) := by
  unfold Program.nanArray at h
  repeat' split at h
  all_goals cases h
  rfl

/-- On inputs it accepts, a batch runs its points in order and writes as `Batch.Written` says,
unless no buffer was given and the fresh one for the count cannot be made. -/
theorem Program.batch_of_accepts (p : Program) {columns count out : Datum} {g : Grid}
    {width k : Nat} {slots : List Datum}
    (hacc : Batch.Accepts p.arity columns count out g width k slots) :
    (out = .none ∧ ∃ a, Program.nanArray k = .error a ∧ p.batch columns count out = .error a) ∨
    ∃ r, p.batch columns count out = .ok r ∧
      Batch.Written (fun pt => p.evaluate (.list (pt.map .real)))
        (Batch.pointAt? (g.rows p.arity.toNat width)) k slots r := by
  have hpts : ∀ i < k, ∃ pt, Batch.pointAt? (g.rows p.arity.toNat width) i = some pt :=
    fun i hi => hacc.points hi
  obtain ⟨hgrid, hshape, hcount, hbuf⟩ := hacc
  obtain ⟨hdims, hn⟩ := Batch.shape_iff.2 hshape
  have hval : (fun pt : List Float => p.evaluate (.list (pt.map .real))) = p.code.execute :=
    funext p.evaluate_reals
  unfold Program.batch
  rw [hgrid]
  simp only [ok_bind]
  rw [hdims]
  dsimp only
  rw [if_neg (by omega)]
  split
  · -- the count always reads as an integer
    next heq =>
    exfalso
    split at heq
    · cases heq
    · next hnone =>
      rcases hcount with ⟨rfl, -⟩ | ⟨c, hc, -⟩
      · exact hnone rfl
      · rw [hc] at heq
        cases heq
  · next n heq =>
    have hnk : n = (k : Int) := by
      split at heq
      · rcases hcount with ⟨-, rfl⟩ | ⟨c, hc, -⟩
        · cases heq
          rfl
        · cases hc
      · next hnone =>
        rcases hcount with ⟨rfl, -⟩ | ⟨c, hc, hc0, -, rfl⟩
        · exact absurd rfl hnone
        · rw [hc] at heq
          cases heq
          omega
    subst hnk
    have hwidth : ¬(p.arity > 0 ∧ (k : Int) > width) := by
      rintro ⟨hpos, hgt⟩
      rcases hcount with ⟨-, rfl⟩ | ⟨c, -, hc0, hcw, rfl⟩
      · omega
      · have := hcw hpos
        omega
    rw [if_neg (by omega), if_neg hwidth]
    have hrows : ((g.rows p.arity.toNat width).length : Int) = p.code.arity := by
      simp only [Grid.rows, List.length_map, List.length_range]
      exact Int.toNat_of_nonneg hn
    -- the buffer: a fresh one of NaN slots, or the caller's list
    have hslots : k ≤ slots.length := by
      rcases hbuf with ⟨-, rfl⟩ | ⟨-, hk⟩
      · simp
      · exact hk
    have hbuffer : (out = .none ∧ ∃ a, Program.nanArray k = .error a ∧
        Program.bufferOf out k = .error a) ∨ Program.bufferOf out k = .ok (.ok (.list slots)) := by
      rcases hbuf with ⟨rfl, rfl⟩ | ⟨rfl, hk⟩
      · cases hnan : Program.nanArray k with
        | error a => exact .inl ⟨rfl, a, rfl, by simp [Program.bufferOf, hnan]⟩
        | ok buf =>
          right
          simp [Program.bufferOf, hnan, Program.nanArray_eq_ok hnan]
      · right
        simp [Program.bufferOf, Datum.length?, show ¬ (slots.length : Int) < k by omega]
    rcases hbuffer with ⟨hout, a, hnan, hb⟩ | hb
    · exact .inl ⟨hout, a, hnan, by rw [hb]; rfl⟩
    right
    rw [hb, ok_bind]
    dsimp only
    obtain ⟨filled, stop, hfill, hw⟩ := p.code.fill_written _ hrows hpts hslots
    rw [Int.toNat_natCast, hfill, ok_bind, hval]
    cases stop with
    | none => exact ⟨_, rfl, filled, none, hw, .inl ⟨rfl, rfl⟩⟩
    | some e => exact ⟨_, rfl, filled, some e, hw, .inr ⟨e, rfl, rfl⟩⟩

/-- On inputs it does not accept, a batch refuses with a shape failure before running any point,
unless reading the columns aborts. -/
theorem Program.batch_refuses (p : Program) {columns count out : Datum}
    (hout : out = .none ∨ ∃ slots, out = .list slots)
    (hnot : ∀ g width k slots, ¬ Batch.Accepts p.arity columns count out g width k slots) :
    (∃ e, p.batch columns count out = .ok (.refused e) ∧ e.errorClass = .dimension) ∨
    ∃ a, columns.toGrid = .error a ∧ p.batch columns count out = .error a := by
  unfold Program.batch
  cases hgrid : columns.toGrid with
  | error a => exact .inr ⟨a, rfl, rfl⟩
  | ok og =>
    left
    cases og with
    | none => exact ⟨_, rfl, rfl⟩
    | some g =>
      simp only [ok_bind]
      split
      · next rows width hdims =>
        split
        · exact ⟨_, rfl, rfl⟩
        · next hrows =>
          split
          · exact ⟨_, rfl, rfl⟩
          · next n heq =>
            split
            · exact ⟨_, rfl, rfl⟩
            · next hneg =>
              split
              · exact ⟨_, rfl, rfl⟩
              · next hshort =>
                -- the columns and the count pass; only the buffer is left to refuse
                have hshape := Batch.shape_iff.1 ⟨by rw [hdims]; congr; omega, by omega⟩
                have hcount : count = .none ∧ n.toNat = width ∨ ∃ c : Int, count.asCount? = some c ∧
                    0 ≤ c ∧ (0 < p.arity → c ≤ width) ∧ n.toNat = c.toNat := by
                  split at heq
                  · cases heq
                    exact .inl ⟨rfl, rfl⟩
                  · exact .inr ⟨n, heq, by omega, fun hpos => by omega, rfl⟩
                rcases hout with rfl | ⟨slots, rfl⟩
                · exact absurd ⟨hgrid, hshape, hcount, .inl ⟨rfl, rfl⟩⟩ (hnot g width n.toNat _)
                · by_cases hshort' : (slots.length : Int) < n
                  · simp only [Program.bufferOf, Datum.length?, if_pos hshort', ok_bind]
                    exact ⟨_, rfl, rfl⟩
                  · exact absurd ⟨hgrid, hshape, hcount, .inr ⟨rfl, by omega⟩⟩
                      (hnot g width n.toNat slots)
      · exact ⟨_, rfl, rfl⟩

/-! ## The whole batch -/

/-- A batch with no buffer or a list for one ends in one of three ways. It refuses with a shape
failure, and then it accepts none of its inputs; it aborts, and then either reading the columns
aborted or, with no buffer given, the fresh buffer for an accepted count could not be made; or it
accepts its inputs and runs their points `0, 1, …` in order, point `i` being the `i`-th entry of
every column, writing each value at its index and stopping at the first point that fails, whose
failure it reports at that index; every slot from there on is left as it was. -/
theorem batch_refuses_or_writes_in_order (p : Program) (columns count out : Datum)
    (hout : out = .none ∨ ∃ slots, out = .list slots) :
    (∃ e, p.batch columns count out = .ok (.refused e) ∧ e.errorClass = .dimension ∧
      ∀ g width k slots, ¬ Batch.Accepts p.arity columns count out g width k slots) ∨
    (∃ a, p.batch columns count out = .error a ∧ (columns.toGrid = .error a ∨
      out = .none ∧ ∃ g width k, Batch.Accepts p.arity columns count out g width k
        (List.replicate k (.real (0.0 / 0.0))) ∧ Program.nanArray k = .error a)) ∨
    (∃ g width k slots r, Batch.Accepts p.arity columns count out g width k slots ∧
      p.batch columns count out = .ok r ∧
      Batch.Written (fun pt => p.evaluate (.list (pt.map .real)))
        (Batch.pointAt? (g.rows p.arity.toNat width)) k slots r) := by
  by_cases hacc : ∃ g width k slots, Batch.Accepts p.arity columns count out g width k slots
  · obtain ⟨g, width, k, slots, hacc⟩ := hacc
    rcases p.batch_of_accepts hacc with ⟨rfl, a, hnan, hb⟩ | ⟨r, hb, hw⟩
    · -- without a buffer, the accepted slots are the fresh NaN ones
      have hslots : slots = List.replicate k (.real (0.0 / 0.0)) := by
        rcases hacc.2.2.2 with ⟨-, h⟩ | ⟨h, -⟩
        · exact h
        · cases h
      exact .inr (.inl ⟨a, hb, .inr ⟨rfl, g, width, k, hslots ▸ hacc, hnan⟩⟩)
    · exact .inr (.inr ⟨g, width, k, slots, r, hacc, hb, hw⟩)
  · have hnot : ∀ g width k slots, ¬ Batch.Accepts p.arity columns count out g width k slots :=
      fun g width k slots h => hacc ⟨g, width, k, slots, h⟩
    rcases p.batch_refuses hout hnot with ⟨e, hb, he⟩ | ⟨a, hg, hb⟩
    · exact .inl ⟨e, hb, he, hnot⟩
    · exact .inr (.inl ⟨a, hb, .inl hg⟩)

/-- The program of `2^10`, over no variables. -/
def twoToTheTen : Program :=
  ⟨⟨[.push 2.0, .push 10.0, .binary .pow, .ret], 0⟩, "2^10", [], .auto, 1e-5⟩

/-- The batch of `2^10` over the columns `[[]]`, with no count and no buffer, ends in one of the
three ways. -/
theorem batch_of_constant_over_empty_column :
    (Datum.none = .none ∨ ∃ slots, Datum.none = .list slots) ∧
    ((∃ e, twoToTheTen.batch (.list [.list []]) .none .none = .ok (.refused e) ∧
        e.errorClass = .dimension ∧
        ∀ g width k slots, ¬ Batch.Accepts twoToTheTen.arity (.list [.list []]) .none .none g width k slots) ∨
      (∃ a, twoToTheTen.batch (.list [.list []]) .none .none = .error a ∧
        ((Datum.list [.list []]).toGrid = .error a ∨
          Datum.none = .none ∧ ∃ g width k, Batch.Accepts twoToTheTen.arity (.list [.list []]) .none .none g
            width k (List.replicate k (.real (0.0 / 0.0))) ∧ Program.nanArray k = .error a)) ∨
      (∃ g width k slots r, Batch.Accepts twoToTheTen.arity (.list [.list []]) .none .none g width k slots ∧
        twoToTheTen.batch (.list [.list []]) .none .none = .ok r ∧
        Batch.Written (fun pt => twoToTheTen.evaluate (.list (pt.map .real)))
          (Batch.pointAt? (g.rows twoToTheTen.arity.toNat width)) k slots r)) :=
  ⟨.inl rfl, batch_refuses_or_writes_in_order twoToTheTen (.list [.list []]) .none .none (.inl rfl)⟩

/-- A program without variables takes the one empty column `[[]]`, an array of one row, as no
columns of no points: the batch runs no point and finishes instead of refusing the row count. -/
theorem batch_takes_empty_column_without_variables :
    (Datum.list [.list []]).toGrid = .ok (some ⟨[1, 0], []⟩) ∧ twoToTheTen.arity = 0 ∧
    twoToTheTen.batch (.list [.list []]) .none .none = .ok (.finished (.list [])) :=
  ⟨rfl, rfl, rfl⟩

end ScalarDiff
