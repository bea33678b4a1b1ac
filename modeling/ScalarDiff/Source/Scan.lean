import ScalarDiff.Decimal.Read
import ScalarDiff.Source.Problem

/-!
# Cutting expression text into tokens

The text is read left to right, each token as long as it can be:

* blanks (space, tab, line feed, carriage return, form feed, vertical tab) separate tokens;
* a number is digits with an optional point and fraction digits, at least one digit in all,
  then an exponent `e` or `E` with an optional sign, taken only when a digit follows it; a point
  right after a finished number makes the whole run of points and digits a malformed number,
  and so does a point with no digit on either side;
* a name is a letter or underscore followed by letters, digits and underscores;
* `+ - * / ^`, parentheses and the comma are one-character tokens.

Any other character is refused at its position. The value of a number is the double nearest to
its decimal text.
-/

namespace ScalarDiff.Source

/-- The blanks between tokens. -/
def isBlank (c : Char) : Bool :=
  c = ' ' || c = '\t' || c = '\n' || c = '\r' || c = '\x0c' || c = '\x0b'

/-- ASCII decimal digits. -/
def isDigit (c : Char) : Bool := '0' ≤ c && c ≤ '9'

/-- Characters that may start a name. -/
def isNameStart (c : Char) : Bool :=
  c = '_' || ('a' ≤ c && c ≤ 'z') || ('A' ≤ c && c ≤ 'Z')

/-- Characters that may continue a name. -/
def isNamePart (c : Char) : Bool := isNameStart c || isDigit c

/-- The value of a run of ASCII digits. -/
def digitsValue (ds : List Char) : Nat :=
  ds.foldl (fun acc d => 10 * acc + (d.toNat - '0'.toNat)) 0

/-- The parts of a number's text: the whole text, its digits before and after the point, and
its exponent if one was taken. -/
structure NumberText where
  text : List Char
  whole : List Char
  fraction : List Char
  exponent : Int

/-- The double a number's text denotes. -/
def NumberText.value (n : NumberText) : Float :=
  Decimal.toFloat false (digitsValue (n.whole ++ n.fraction)) (n.exponent - n.fraction.length)

/-- The exponent part at the front of `cs`, if one is there: the characters it covers and its
value. An `e` without digits after it (and an optional sign) is no exponent. -/
def exponentPart (cs : List Char) : Option (List Char × Int) :=
  match cs with
  | e :: rest =>
    if e = 'e' ∨ e = 'E' then
      let (sign, body) : List Char × List Char :=
        match rest with
        | s :: more => if s = '+' ∨ s = '-' then ([s], more) else ([], rest)
        | [] => ([], [])
      let ds := body.takeWhile isDigit
      if ds.isEmpty then none
      else
        let v : Int := digitsValue ds
        some (e :: sign ++ ds, if sign = ['-'] then -v else v)
    else none
  | [] => none

/-- Read a number at the front of `cs`: its text, or the text of a malformed number. -/
def scanNumber (cs : List Char) : Except (List Char) NumberText :=
  let whole := cs.takeWhile isDigit
  let afterWhole := cs.drop whole.length
  let (point, fraction) : List Char × List Char :=
    match afterWhole with
    | '.' :: rest => (['.'], rest.takeWhile isDigit)
    | _ => ([], [])
  let mantissa := whole ++ point ++ fraction
  if whole.isEmpty ∧ fraction.isEmpty then .error mantissa
  else
    let afterMantissa := cs.drop mantissa.length
    let (expText, expValue) := (exponentPart afterMantissa).getD ([], 0)
    let text := mantissa ++ expText
    match cs.drop text.length with
    | '.' :: rest =>
      .error (text ++ '.' :: rest.takeWhile (fun c => c = '.' || isDigit c))
    | _ => .ok ⟨text, whole, fraction, expValue⟩

/-- Tokens from position `pos` on, the end token last, or the first refusal. -/
def scanFrom (cs : List Char) (pos : Nat) : Except ParseError (List Token) :=
  match cs with
  | [] => .ok [Token.finish pos]
  | c :: rest =>
    if isBlank c then scanFrom rest (pos + 1)
    else if isDigit c || c = '.' then
      match scanNumber (c :: rest) with
      | .error text =>
        let s := String.ofList text
        .error ⟨.badNumber s pos, pos, pos + text.length, some s⟩
      | .ok n =>
        let k := n.text.length
        let tok : Token := ⟨.number n.value, String.ofList n.text, pos, pos + k⟩
        (tok :: ·) <$> scanFrom (rest.drop (k - 1)) (pos + k)
    else if isNameStart c then
      let part := rest.takeWhile isNamePart
      let name := String.ofList (c :: part)
      let kind : TokenKind := if functionNames.contains name then .function else .variable
      let k := part.length + 1
      (⟨kind, name, pos, pos + k⟩ :: ·) <$> scanFrom (rest.drop part.length) (pos + k)
    else
      let single : Option TokenKind :=
        if c = '+' || c = '-' || c = '*' || c = '/' || c = '^' then some .operator
        else if c = '(' then some .openParen
        else if c = ')' then some .closeParen
        else if c = ',' then some .comma
        else none
      match single with
      | some kind => (⟨kind, String.singleton c, pos, pos + 1⟩ :: ·) <$> scanFrom rest (pos + 1)
      | none =>
        .error ⟨.strayCharacter c pos, pos, pos + 1, some (String.singleton c)⟩
termination_by cs.length
decreasing_by all_goals (simp only [List.length_drop, List.length_cons]; omega)

/-- The tokens of a text, the end token last, or the first refusal. -/
def tokenize (s : String) : Except ParseError (List Token) := scanFrom s.toList 0

end ScalarDiff.Source
