import ScalarDiff.Datum

/-!
# Rectangular arrays of doubles from nested data

Numeric inputs arrive as nested lists. They are read as a rectangular array of doubles in two
passes, in this order:

1. **Shape.** A datum that is no list is a single entry, of shape `[]`. A list has shape
   `len :: s` when every item has the same shape `s`; the empty list has shape `[0]`. Items of
   different shapes (different lengths, or a list beside an entry) make the data ragged, and
   ragged data is no array at all; neither is data of more than 64 dimensions.
2. **Entries.** The entries, in row-major order, are read as doubles: nothing (`null`) is NaN,
   and every other entry as `ScalarDiff.Datum.toReal` reads it. The first entry that fails
   decides: an integer beyond every double aborts the call, and any other failure makes the
   data no array of doubles.

Dictionaries and texts are entries, never sequences: a dictionary always fails as an entry, and
a text succeeds exactly when it reads as a real numeral.
-/

namespace ScalarDiff

/-- A rectangular array of doubles: its dimensions, and its entries in row-major order. -/
structure Grid where
  dims : List Nat
  entries : List Float

namespace Datum

mutual

/-- The shape of nested data, if it is not ragged. -/
def dims? : Datum → Option (List Nat)
  | .list items => do
    let shapes ← itemDims? items
    match shapes with
    | [] => some [0]
    | s :: rest => if rest.all (· == s) then some (items.length :: s) else Option.none
  | _ => some []

/-- The shapes of a list's items, if none is ragged. -/
def itemDims? : List Datum → Option (List (List Nat))
  | [] => some []
  | d :: ds => do
    let s ← dims? d
    let ss ← itemDims? ds
    pure (s :: ss)

end

mutual

/-- The entries of nested data, in row-major order. -/
def leaves : Datum → List Datum
  | .list items => itemLeaves items
  | d => [d]

/-- The entries of a list's items, in row-major order. -/
def itemLeaves : List Datum → List Datum
  | [] => []
  | d :: ds => leaves d ++ itemLeaves ds

end

/-- An entry read as a double: nothing is NaN, everything else as a double argument. -/
def asEntry : Datum → Except Abort Float
  | .none => .ok (0.0 / 0.0)
  | d => d.toReal

end Datum

namespace Grid

/-- Entries read as doubles in order: none at the first entry that fails, or an abort if that
entry is an integer beyond every double. -/
def readEntries : List Datum → Except Abort (Option (List Float))
  | [] => .ok (some [])
  | d :: ds =>
    match d.asEntry with
    | .error .integerTooLarge => .error .integerTooLarge
    | .error _ => .ok Option.none
    | .ok x => do
      let rest ← readEntries ds
      pure ((x :: ·) <$> rest)

/-- The number of entries. -/
def size (g : Grid) : Nat := g.entries.length

/-- The rows of a two-dimensional array with `width` entries per row. -/
def rows (g : Grid) (count width : Nat) : List (List Float) :=
  (List.range count).map fun i => (g.entries.drop (i * width)).take width

end Grid

/-- The most dimensions an array may have. -/
def Grid.maxDims : Nat := 64

/-- Nested data read as an array of doubles: none when it is ragged, has more than
`Grid.maxDims` dimensions or an entry is no number, and an abort when the first entry that fails
is an integer beyond every double. -/
def Datum.toGrid (d : Datum) : Except Abort (Option Grid) :=
  match d.dims? with
  | Option.none => .ok Option.none
  | some dims =>
    if dims.length > Grid.maxDims then .ok Option.none
    else do
      let entries ← Grid.readEntries d.leaves
      pure ((Grid.mk dims ·) <$> entries)

end ScalarDiff
