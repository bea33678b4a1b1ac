import ScalarDiff.Datum
import ScalarDiff.Error

/-!
# Data as output buffers

A batch writes its values into a buffer the caller hands over, value `i` at position `i`. Any
datum may be handed over, and what a write does depends on its kind:
* a list takes the value at one of its positions and refuses a position past its end;
* a table takes it under the position written out as a key, replacing the value of a key it
  already has and adding the key after the others otherwise;
* a text is a sequence whose items cannot be replaced, and the other kinds take no items at all:
  writing into them aborts with the name of the type.

Before writing, a caller may compare the buffer's length with the number of values: a list has
as many as it has items, a text as many as it has characters and a table as many as it has keys.
The other kinds have no length. A number of values given as a datum must be an integer or a
truth value (`ScalarDiff.Datum.asIndex`).
-/

namespace ScalarDiff

namespace Datum

/-- The number of slots of a buffer, for the kinds that have a length. -/
def length? : Datum → Option Nat
  | .list items => some items.length
  | .text s => some s.length
  | .dict entries => some entries.length
  | _ => Option.none

/-- The entries with `value` under `key`: the first entry with that key takes it, and a key not
present is added at the end. -/
def setEntry : List (String × Datum) → String → Datum → List (String × Datum)
  | [], key, value => [(key, value)]
  | (k, v) :: rest, key, value =>
    if k = key then (k, value) :: rest else (k, v) :: setEntry rest key value

/-- A datum used as a count of loop rounds: an integer, or a truth value counting `0` or `1`.
Any other value aborts. -/
def asIndex (d : Datum) : Except Abort Int :=
  match d.asCount? with
  | some n => .ok n
  | Option.none => .error (.notIndex d.typeName)

/-- Write `value` into a buffer at position `i`. -/
def setItem (buffer : Datum) (i : Nat) (value : Datum) : Except Abort Datum :=
  match buffer with
  | .list items => if i < items.length then .ok (.list (items.set i value)) else .error .noSlot
  | .dict entries => .ok (.dict (setEntry entries (toString i) value))
  | d => .error (.notAssignable d.typeName)

end Datum

end ScalarDiff
