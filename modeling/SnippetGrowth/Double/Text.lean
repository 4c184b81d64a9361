import SnippetGrowth.Double.Basic

/-!
Written forms of floating-point numbers.

The shortest form has the fewest significant digits that read back as the same
number, and of those the digits nearest to it.  It is positional while the
decimal exponent lies from -4 to 15 and scientific otherwise, always with a
fraction or an exponent; an exponent has a sign and two digits at least.

The fixed form has a given count of places after the point, the last one
rounded with a half going to the even neighbour.
-/

namespace SnippetGrowth.Double

def ratio (significand : Nat) (exponent : Int) : Nat × Nat :=
  (significand * 2 ^ exponent.toNat, 2 ^ (-exponent).toNat)

def reaches (numerator denominator : Nat) (power : Int) : Bool :=
  denominator * 10 ^ power.toNat ≤ numerator * 10 ^ (-power).toNat

def decimalExponent (numerator denominator : Nat) : Int :=
  let guess := (binaryExponent numerator denominator * 30103) / 100000
  if reaches numerator denominator (guess + 1) then guess + 1
  else if reaches numerator denominator guess then guess
  else guess - 1

structure Decimal where
  digits : Nat
  exponent : Int

def ofDecimal (negative : Bool) (d : Decimal) : Double :=
  ofRatio negative (d.digits * 10 ^ d.exponent.toNat) (10 ^ (-d.exponent).toNat)

/-- The numeral of at most `count` digits nearest to the number, if it reads back. -/
def withDigits? (significand : Nat) (exponent : Int) (count : Nat) :
    Option Decimal :=
  let (numerator, denominator) := ratio significand exponent
  let place := decimalExponent numerator denominator - count + 1
  let scaledUp := numerator * 10 ^ (-place).toNat
  let scaledDown := denominator * 10 ^ place.toNat
  let below : Decimal := ⟨scaledUp / scaledDown, place⟩
  let above : Decimal := ⟨scaledUp / scaledDown + 1, place⟩
  let nearest : Decimal := ⟨roundQuotient scaledUp scaledDown, place⟩
  let readsBack (d : Decimal) : Bool :=
    ofDecimal false d == finite false significand exponent
  if readsBack nearest then some nearest
  else if readsBack below then some below
  else if readsBack above then some above
  else none

/-- The shortest numeral that reads back; seventeen digits always do. -/
def shortest (significand : Nat) (exponent : Int) : Decimal :=
  ((List.range 17).findSome?
    fun count => withDigits? significand exponent (count + 1)).getD
    ⟨significand, exponent⟩

def positionalFrom : Int := -4

def positionalBelow : Int := 16

def Decimal.trim : Nat → Decimal → Decimal
  | 0, d => d
  | fuel + 1, d =>
      if d.digits % 10 = 0 then Decimal.trim fuel ⟨d.digits / 10, d.exponent + 1⟩
        else d

def padLeft (width : Nat) (digits : List Char) : List Char :=
  List.replicate (width - digits.length) '0' ++ digits

def decimalDigits (n : Nat) : List Char := Nat.toDigits 10 n

def withPoint (places value : Nat) : List Char :=
  let digits := padLeft (places + 1) (decimalDigits value)
  digits.take (digits.length - places) ++
    '.' :: digits.drop (digits.length - places)

def exponentText (exponent : Int) : List Char :=
  'e' :: (if exponent < 0 then '-' else '+') ::
    padLeft 2 (decimalDigits exponent.natAbs)

def Decimal.text (d : Decimal) : List Char :=
  let digits := decimalDigits d.digits
  let exponent := d.exponent + digits.length - 1
  if positionalFrom ≤ exponent ∧ exponent < positionalBelow then
    if 0 ≤ d.exponent then withPoint 1 (d.digits * 10 ^ (d.exponent.toNat + 1))
    else withPoint (-d.exponent).toNat d.digits
  else
    match digits with
    | [] => exponentText exponent
    | [digit] => digit :: exponentText exponent
    | digit :: rest => digit :: '.' :: rest ++ exponentText exponent

def signText (negative : Bool) (magnitude : List Char) : String :=
  String.ofList (if negative then '-' :: magnitude else magnitude)

def nanText : String := "nan"

def infiniteText (negative : Bool) : String := if negative then "-inf" else "inf"

def text : Double → String
  | nan => nanText
  | infinite negative => infiniteText negative
  | finite negative 0 _ => signText negative ['0', '.', '0']
  | finite negative significand exponent =>
      signText negative ((shortest significand exponent).trim 400).text

def fixedText (places : Nat) : Double → String
  | nan => nanText
  | infinite negative => infiniteText negative
  | finite negative significand exponent =>
      let (numerator, denominator) := ratio significand exponent
      signText negative
        (withPoint places (roundQuotient (numerator * 10 ^ places) denominator))

end SnippetGrowth.Double
