import ScalarDiff.Decimal.Format
import ScalarDiff.Decimal.Loose
import ScalarDiff.Error
import ScalarDiff.Text.Quoted

/-!
# Loosely typed arguments

The session interface accepts whatever a caller hands over: a mode may come as a name or a
number, a step size as a number or a numeral in text, a point as nested lists. A `Datum` is
such an argument: nothing, a truth value, an integer of any size, a double, a text, a list or a
table of named entries. This module gives each its type name and its written form, as they
appear in messages (`None`, `True`, `2.0`, `'2'`, `[1]`, `{'a': 1}`), and reads an integer from
a datum that equals one.

A datum used as a double is read as follows: a double is itself, an integer is the nearest
double (an integer beyond every double aborts the call), a truth value is `1.0` or `0.0`, a text
is read as a real numeral (a text that is none aborts the call), and anything else aborts the
call as not convertible.
-/

namespace ScalarDiff


/-- An argument as a caller hands it over. -/
inductive Datum where
  | none
  | bool (b : Bool)
  | int (i : Int)
  | real (x : Float)
  | text (s : String)
  | list (items : List Datum)
  | dict (entries : List (String × Datum))
  deriving Inhabited

namespace Datum

/-- The name of a datum's type, as messages report it. -/
def typeName : Datum → String
  | .none => "NoneType"
  | .bool _ => "bool"
  | .int _ => "int"
  | .real _ => "float"
  | .text _ => "str"
  | .list _ => "list"
  | .dict _ => "dict"

mutual
/-- The written form of a datum. -/
def written : Datum → String
  | .none => "None"
  | .bool b => if b then "True" else "False"
  | .int i => toString i
  | .real x => x.text
  | .text s => Text.quoted s
  | .list items => "[" ++ ", ".intercalate (writtenItems items) ++ "]"
  | .dict entries => "\x7b" ++ ", ".intercalate (writtenEntries entries) ++ "\x7d"

/-- The written forms of list items. -/
def writtenItems : List Datum → List String
  | [] => []
  | d :: ds => written d :: writtenItems ds

/-- The written forms of table entries, `key: value`. -/
def writtenEntries : List (String × Datum) → List String
  | [] => []
  | (k, d) :: es => (Text.quoted k ++ ": " ++ written d) :: writtenEntries es
end

/-- The integer a datum equals as a number: integers themselves, truth values as `1` and `0`,
and doubles that are whole numbers. -/
def asInt? : Datum → Option Int
  | .int i => some i
  | .bool b => some (if b then 1 else 0)
  | .real x =>
    match Decimal.Binary.ofFloat? x with
    | some b =>
      if b.exponent ≥ 0 then
        let m : Int := b.significand * Int.pow 2 b.exponent.toNat
        some (if b.negative then -m else m)
      else if b.significand % Nat.pow 2 (-b.exponent).toNat = 0 then
        let m : Int := b.significand / Int.pow 2 (-b.exponent).toNat
        some (if b.negative then -m else m)
      else Option.none
    | Option.none => Option.none
  | _ => Option.none

/-- The integer a datum is as a count: integers and truth values only. -/
def asCount? : Datum → Option Int
  | .int i => some i
  | .bool b => some (if b then 1 else 0)
  | _ => Option.none

/-- A datum used as a double. -/
def toReal : Datum → Except Abort Float
  | .real x => .ok x
  | .int i =>
    match Decimal.intToFloat? i with
    | some x => .ok x
    | Option.none => .error .integerTooLarge
  | .bool b => .ok (if b then 1.0 else 0.0)
  | .text s =>
    match Decimal.readReal? s with
    | some x => .ok x
    | Option.none => .error (.notANumeral s)
  | d => .error (.notConvertible d.typeName)

end Datum

end ScalarDiff
