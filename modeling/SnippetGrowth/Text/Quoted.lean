import SnippetGrowth.Text.Printable

/-!
Quoted text for messages.  Apostrophes enclose the text unless it holds an
apostrophe and no double quote.  The backslash, the enclosing mark and the
line and tab controls have short escapes; any other character that is not
shown as it is becomes its code point in two, four or eight lower-case
hexadecimal digits.
-/

namespace SnippetGrowth.Text

def hexDigits (width code : Nat) : List Char :=
  (List.range width).reverse.map fun place =>
    Nat.digitChar ((code >>> (4 * place)) % 16)

def quoteMark (text : List Char) : Char :=
  if text.contains '\x27' && !text.contains '\x22' then '\x22' else '\x27'

def escape (mark c : Char) : List Char :=
  if c = mark || c = '\\' then ['\\', c]
  else if c = '\n' then ['\\', 'n']
  else if c = '\r' then ['\\', 'r']
  else if c = '\t' then ['\\', 't']
  else if isPrintable c then [c]
  else if c.toNat < 0x100 then '\\' :: 'x' :: hexDigits 2 c.toNat
  else if c.toNat < 0x10000 then '\\' :: 'u' :: hexDigits 4 c.toNat
  else '\\' :: 'U' :: hexDigits 8 c.toNat

def quote (text : String) : String :=
  let mark := quoteMark text.toList
  String.ofList (mark :: text.toList.flatMap (escape mark) ++ [mark])

end SnippetGrowth.Text
