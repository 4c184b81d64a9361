import SnippetGrowth.Text.Blank

/-!
Characters of scripts: blanks, line ends, and the characters of names.

Below code point 128 a name has letters, digits, the low line and the dollar
sign; from there on every character but a blank or a control may be part of
one, so names of all scripts are covered.
-/

namespace SnippetGrowth.Script

def widthless : List Nat := [0x200B, 0x2060, 0xFEFF]

def isHighControl (c : Char) : Bool := 127 ≤ c.toNat && c.toNat < 160

/-- Information separators and the next-line control are no blanks in a script. -/
def isSpace (c : Char) : Bool :=
  (Text.isBlank c && !(28 ≤ c.toNat && c.toNat ≤ 31) && !isHighControl c) ||
    widthless.contains c.toNat

def isLineEnd (c : Char) : Bool :=
  c = '\n' || c = '\r' || c.toNat = 0x2028 || c.toNat = 0x2029

def isNameStart (c : Char) : Bool :=
  if c.toNat < 128 then c.isAlpha || c = '_' || c = '$'
  else !isSpace c && !isLineEnd c && !isHighControl c

def isNamePart (c : Char) : Bool := isNameStart c || c.isDigit

def isHexDigit (c : Char) : Bool :=
  c.isDigit || ('a' ≤ c && c ≤ 'f') || ('A' ≤ c && c ≤ 'F')

def codePointLength? : List Char → Option Nat
  | '\x7b' :: rest =>
      match rest.span isHexDigit with
      | (digit :: digits, '\x7d' :: _) => some ((digit :: digits).length + 2)
      | _ => none
  | a :: b :: c :: d :: _ => if [a, b, c, d].all isHexDigit then some 4 else none
  | _ => none

def escapeLength? : List Char → Option Nat
  | [] => none
  | 'u' :: rest => (codePointLength? rest).map (· + 1)
  | 'x' :: a :: b :: _ => if isHexDigit a && isHexDigit b then some 3 else none
  | 'x' :: _ => none
  | '\r' :: '\n' :: _ => some 2
  | _ :: _ => some 1

end SnippetGrowth.Script
