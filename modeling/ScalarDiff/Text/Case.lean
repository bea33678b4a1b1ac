/-!
# Case-insensitive names

Mode names are compared after changing case. Only the ASCII result matters, since every name
compared with is ASCII: letters change case, and the few other characters whose case change is
pure ASCII are expanded to it (`ß` to `SS`, dotless `ı` to `I`, long `ſ` to `S`, the Kelvin sign
to `k`, the ligatures `ﬀ ﬁ ﬂ ﬃ ﬄ ﬅ ﬆ` to their letters). Any other character stays as it is and
so never matches.
-/

namespace ScalarDiff.Text

/-- A character in capitals, as far as the result is ASCII. -/
def upperChar (c : Char) : List Char :=
  if 'a' ≤ c && c ≤ 'z' then [Char.ofNat (c.toNat - 32)]
  else match c.toNat with
    | 0xDF => ['S', 'S']
    | 0x131 => ['I']
    | 0x17F => ['S']
    | 0xFB00 => ['F', 'F']
    | 0xFB01 => ['F', 'I']
    | 0xFB02 => ['F', 'L']
    | 0xFB03 => ['F', 'F', 'I']
    | 0xFB04 => ['F', 'F', 'L']
    | 0xFB05 => ['S', 'T']
    | 0xFB06 => ['S', 'T']
    | _ => [c]

/-- A character with its case folded, as far as the result is ASCII. -/
def foldChar (c : Char) : List Char :=
  if 'A' ≤ c && c ≤ 'Z' then [Char.ofNat (c.toNat + 32)]
  else match c.toNat with
    | 0xDF => ['s', 's']
    | 0x17F => ['s']
    | 0x1E9E => ['s', 's']
    | 0x212A => ['k']
    | 0xFB00 => ['f', 'f']
    | 0xFB01 => ['f', 'i']
    | 0xFB02 => ['f', 'l']
    | 0xFB03 => ['f', 'f', 'i']
    | 0xFB04 => ['f', 'f', 'l']
    | 0xFB05 => ['s', 't']
    | 0xFB06 => ['s', 't']
    | _ => [c]

/-- A text in capitals. -/
def upper (s : String) : String := String.ofList (s.toList.flatMap upperChar)

/-- A text with its case folded. -/
def fold (s : String) : String := String.ofList (s.toList.flatMap foldChar)

/-- A text with every hyphen replaced by an underscore. -/
def hyphensToUnderscores (s : String) : String :=
  String.ofList (s.toList.map fun c => if c = '-' then '_' else c)

end ScalarDiff.Text
