/-!
Binary floating-point numbers of 53 significant bits, as data.

A finite number is a sign, a significand and a power of two.  Every operation
takes the exact result and rounds it once by `ofRatio`: to the nearest
multiple of the quantum, a half going to the even neighbour.  `ofRatio`
returns a significand below `2 ^ 53` and an exponent of at least `-1074`, with
the significand at least `2 ^ 52` above the least exponent, so equal numbers
other than the zeros have equal representations.
-/

namespace SnippetGrowth

-- A power means the same in every module, whichever other instances are in
-- scope there.
instance powNat : Pow Nat Nat := instPowNat

instance powInt : Pow Int Nat := instPowNat

inductive Double where
  | nan
  | infinite (negative : Bool)
  | finite (negative : Bool) (significand : Nat) (exponent : Int)
  deriving DecidableEq, Repr, Inhabited

/-- The quotient rounded to the nearest natural, a half going to the even
neighbour. -/
def roundQuotient (numerator denominator : Nat) : Nat :=
  let quotient := numerator / denominator
  let twice := 2 * (numerator % denominator)
  if twice < denominator then quotient
  else if denominator < twice then quotient + 1
  else quotient + quotient % 2

/-- The exponent of the greatest power of two that is at most the positive
quotient. -/
def binaryExponent (numerator denominator : Nat) : Int :=
  let guess : Int := numerator.log2 - denominator.log2
  if denominator * 2 ^ guess.toNat ≤ numerator * 2 ^ (-guess).toNat then guess
    else guess - 1

namespace Double

def leastExponent : Int := -1074

def greatestExponent : Int := 971

/-- The exponent of the spacing between neighbours of a positive quotient. -/
def quantum (numerator denominator : Nat) : Int :=
  max (binaryExponent numerator denominator - 52) leastExponent

def signedZero (negative : Bool) : Double := finite negative 0 leastExponent

/-- The number nearest to a quotient; a quotient past the greatest number
becomes infinite. -/
def ofRatio (negative : Bool) (numerator denominator : Nat) : Double :=
  if numerator = 0 then signedZero negative
  else
    let exponent := quantum numerator denominator
    let significand :=
      roundQuotient (numerator * 2 ^ (-exponent).toNat)
        (denominator * 2 ^ exponent.toNat)
    if significand = 2 ^ (53 : Nat) then
      if exponent < greatestExponent then
        finite negative (2 ^ (52 : Nat)) (exponent + 1)
      else infinite negative
    else if exponent ≤ greatestExponent then finite negative significand exponent
    else infinite negative

def ofScaled (negative : Bool) (significand : Nat) (exponent : Int) : Double :=
  ofRatio negative (significand * 2 ^ exponent.toNat) (2 ^ (-exponent).toNat)

def ofNat (n : Nat) : Double := ofRatio false n 1

def ofInt (n : Int) : Double := ofRatio (n < 0) n.natAbs 1

def zero : Double := signedZero false

def one : Double := finite false (2 ^ (52 : Nat)) (-52)

def isFinite : Double → Bool
  | finite .. => true
  | _ => false

def isNan : Double → Bool
  | nan => true
  | _ => false

def isNegative : Double → Bool
  | nan => false
  | infinite negative => negative
  | finite negative _ _ => negative

def isZero : Double → Bool
  | finite _ 0 _ => true
  | _ => false

/-- The greater of two exponents brought down to the smaller: the significand
over it. -/
def aligned (negative : Bool) (significand : Nat) (exponent base : Int) : Int :=
  let magnitude : Int := significand * 2 ^ (exponent - base).toNat
  if negative then -magnitude else magnitude

def lt : Double → Double → Bool
  | nan, _ => false
  | _, nan => false
  | infinite left, infinite right => left && !right
  | infinite left, finite .. => left
  | finite .., infinite right => !right
  | finite s m e, finite t n f =>
      aligned s m e (min e f) < aligned t n f (min e f)

def isPositive (x : Double) : Bool := lt zero x

def add : Double → Double → Double
  | nan, _ => nan
  | _, nan => nan
  | infinite left, infinite right => if left = right then infinite left else nan
  | infinite left, finite .. => infinite left
  | finite .., infinite right => infinite right
  | finite s m e, finite t n f =>
      let sum := aligned s m e (min e f) + aligned t n f (min e f)
      if sum = 0 then signedZero (s && t)
        else ofScaled (sum < 0) sum.natAbs (min e f)

def mul : Double → Double → Double
  | nan, _ => nan
  | _, nan => nan
  | infinite left, infinite right => infinite (left != right)
  | infinite left, finite t n _ => if n = 0 then nan else infinite (left != t)
  | finite s m _, infinite right => if m = 0 then nan else infinite (s != right)
  | finite s m e, finite t n f => ofScaled (s != t) (m * n) (e + f)

def div : Double → Double → Double
  | nan, _ => nan
  | _, nan => nan
  | infinite _, infinite _ => nan
  | infinite left, finite t _ _ => infinite (left != t)
  | finite s _ _, infinite right => signedZero (s != right)
  | finite s m e, finite t n f =>
      if n = 0 then if m = 0 then nan else infinite (s != t)
      else ofRatio (s != t) (m * 2 ^ (e - f).toNat) (n * 2 ^ (f - e).toNat)

def toInt? : Double → Option Int
  | finite negative m e =>
      let magnitude := m * 2 ^ e.toNat
      let divisor := 2 ^ (-e).toNat
      if magnitude % divisor = 0 then
        let whole : Int := (magnitude / divisor : Nat)
        some (if negative then -whole else whole)
      else none
  | _ => none

end Double

end SnippetGrowth
