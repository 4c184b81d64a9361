import SnippetGrowth.Number
import SnippetGrowth.Text.Blank
import SnippetGrowth.Text.Digit
import SnippetGrowth.Text.Search

/-!
Reading numerals.

A decimal numeral has an optional sign, digits with an optional point, and an
optional exponent; infinity and not-a-number have names.  Digits of any script
count by their value, and blanks around the numeral are passed over, the
information separators excepted.

`scriptNumeral` reads the numeric literals of scripts: low lines between
digits are ignored, a base is marked by the second character, and a literal
that ends in `n` has no value here.
-/

namespace SnippetGrowth

namespace Numeral

open Text

def isMargin (c : Char) : Bool := isBlank c && !(28 ≤ c.toNat && c.toNat ≤ 31)

def dropMargins (text : List Char) : List Char :=
  ((text.dropWhile isMargin).reverse.dropWhile isMargin).reverse

/-- Digits of any script as digits from `'0'` to `'9'`; other characters stay. -/
def normal (c : Char) : Char :=
  match digitValue? c with
  | some value => Nat.digitChar value
  | none => c

def sign : List Char → Bool × List Char
  | '-' :: rest => (true, rest)
  | '+' :: rest => (false, rest)
  | text => (false, text)

def exponent? : List Char → Option Int
  | [] => some 0
  | mark :: rest =>
      if mark.toLower = 'e' then
        let (negative, digits) := sign rest
        if digits.isEmpty || !digits.all Char.isDigit then none
        else
          let value : Int := digitsValue digits
          some (if negative then -value else value)
      else none

/-- The double nearest to `digits * 10 ^ exponent`, given the digits without
leading zeros. -/
def ofDigits (negative : Bool) (digits : List Char) (exponent : Int) : Double :=
  if digits.isEmpty || digits.length + exponent < -400 then
    Double.signedZero negative
  else if 400 < digits.length + exponent then .infinite negative
  else Double.ofDecimal negative ⟨digitsValue digits, exponent⟩

def unsigned? (negative : Bool) (text : List Char) : Option Double :=
  let (whole, rest) := text.span Char.isDigit
  let (fraction, rest) :=
    match rest with
    | '.' :: rest => rest.span Char.isDigit
    | rest => ([], rest)
  if whole.isEmpty && fraction.isEmpty then none
  else
    (exponent? rest).map fun exponent =>
      ofDigits negative ((whole ++ fraction).dropWhile (· == '0'))
        (exponent - fraction.length)

def named? (negative : Bool) (text : List Char) : Option Double :=
  let name := text.map Char.toLower
  if name = "inf".toList || name = "infinity".toList then
    some (.infinite negative)
  else if name = "nan".toList then some .nan
  else none

def decimal? (text : List Char) : Option Double :=
  let (negative, magnitude) := sign ((dropMargins text).map normal)
  (named? negative magnitude).orElse fun _ => unsigned? negative magnitude

def digitIn? (base : Nat) (c : Char) : Option Nat :=
  let n := (normal c).toLower.toNat
  let value := if n < 97 then n - 48 else n - 87
  if ((48 ≤ n && n ≤ 57) || (97 ≤ n && n ≤ 102)) && value < base then some value
    else none

def digitsIn? (base : Nat) (digits : List Char) : Option Nat :=
  if digits.isEmpty then none
  else digits.foldlM (fun value c => (digitIn? base c).map (base * value + ·)) 0

def base? (letter : Char) : Option Nat :=
  match letter.toLower with
  | 'x' => some 16
  | 'o' => some 8
  | 'b' => some 2
  | _ => none

def announced? : List Char → Option Nat
  | '0' :: letter :: _ => base? letter
  | _ => none

def withoutLowLines (text : List Char) : List Char := text.filter (· != '_')

def based (base : Nat) (text : List Char) : Except Failure Number :=
  match digitsIn? base ((dropMargins text).drop 2) with
  | some value => .ok (.whole value)
  | none => .error (.notWhole (String.ofList text))

def decimal (text : List Char) : Except Failure Number :=
  match decimal? text with
  | some value => .ok (.ofDouble value)
  | none => .error (.notDecimal (String.ofList text))

end Numeral

/-- The value of a numeric literal of a script; one that ends in `n` has none. -/
def scriptNumeral (literal : String) : Except Failure (Option Number) :=
  let text := literal.toList
  if text.getLast? = some 'n' then .ok none
  else
    let digits := Numeral.withoutLowLines text
    match Numeral.announced? text with
    | some base => (Numeral.based base digits).map some
    | none => (Numeral.decimal digits).map some

def readDigits (digits : List Char) : Except Failure Nat :=
  if digits.length ≤ digitLimit then .ok (Text.digitsValue digits)
  else .error (.tooLongToRead digits.length)

end SnippetGrowth
