import ScalarDiff.Text.Printable

/-!
# Quoted text

Names, sources and stray characters appear in messages between quotes. The quote is the single
quote, unless the text holds a single quote and no double quote, in which case it is the double
quote. Inside, the chosen quote and the backslash are preceded by a backslash; tab, line feed and
carriage return are written `\t`, `\n`, `\r`; other control characters and non-printable
characters are written as a hexadecimal escape of two, four or eight lowercase digits
(`\x00`, `\u200b`, `\U000e0001`) by the size of their code point. Printable characters, ASCII
or not, are written as themselves.
-/

namespace ScalarDiff.Text

/-- The single quote character. -/
def singleQuote : Char := Char.ofNat 39

/-- The lowercase hexadecimal digits of `n`, padded with zeros to `width`. -/
def hexDigits (width n : Nat) : List Char :=
  let ds := Nat.toDigits 16 n
  List.replicate (width - ds.length) '0' ++ ds

/-- The escape for a character that is not written as itself. -/
def hexEscape (c : Char) : List Char :=
  let n := c.toNat
  if n ≤ 0xff then ['\\', 'x'] ++ hexDigits 2 n
  else if n ≤ 0xffff then ['\\', 'u'] ++ hexDigits 4 n
  else ['\\', 'U'] ++ hexDigits 8 n

/-- How one character is written between the quotes `q`. -/
def quoteChar (q c : Char) : List Char :=
  if c = q ∨ c = '\\' then ['\\', c]
  else if c = '\t' then ['\\', 't']
  else if c = '\n' then ['\\', 'n']
  else if c = '\r' then ['\\', 'r']
  else if c.toNat < 0x20 ∨ c.toNat = 0x7f then hexEscape c
  else if c.toNat < 0x7f then [c]
  else if isPrintable c then [c]
  else hexEscape c

/-- The quote used for a text: double only when the text holds a single quote and no double
quote. -/
def quoteFor (cs : List Char) : Char :=
  if cs.contains singleQuote && !cs.contains '"' then '"' else singleQuote

/-- A text between quotes, with the escapes above. -/
def quoted (s : String) : String :=
  let q := quoteFor s.toList
  String.ofList (q :: (s.toList.flatMap (quoteChar q) ++ [q]))

/-- A sequence of texts as a parenthesised tuple: `()`, `('x',)`, `('x', 'y')`. -/
def quotedTuple (items : List String) : String :=
  match items with
  | [] => "()"
  | [a] => "(" ++ quoted a ++ ",)"
  | _ => "(" ++ ", ".intercalate (items.map quoted) ++ ")"

/-- A sequence of numbers as a parenthesised tuple: `()`, `(3,)`, `(1, 2)`. -/
def natTuple (items : List Nat) : String :=
  match items with
  | [] => "()"
  | [a] => "(" ++ toString a ++ ",)"
  | _ => "(" ++ ", ".intercalate (items.map toString) ++ ")"

/-- A sequence of numbers as a parenthesised tuple without spaces, as array shapes are written
in messages about arrays: `()`, `(3,)`, `(1,2)`. -/
def natTupleTight (items : List Nat) : String :=
  match items with
  | [] => "()"
  | [a] => "(" ++ toString a ++ ",)"
  | _ => "(" ++ ",".intercalate (items.map toString) ++ ")"

end ScalarDiff.Text
