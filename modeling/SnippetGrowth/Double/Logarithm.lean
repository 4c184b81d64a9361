import SnippetGrowth.Double.Basic

/-!
Logarithms rounded to the nearest double.

A logarithm of a number other than a power of the base is irrational, so it is
never a half-way case: computed from below in fixed point with a known error
bound, it rounds the same way at both ends of the error interval once there
are enough bits.  `precisions` lists the attempts in order.

A magnitude of at least one is split into a power of two and a rest in
`[1, 2)`; the logarithm of the rest is twice the inverse hyperbolic tangent of
`(y - 1) / (y + 1)`.  A magnitude below one has the opposite logarithm of its
inverse.
-/

namespace SnippetGrowth.Double

def precisions : List Nat := [192, 384, 768, 1536]

/-- An upper bound, in units of the last place, on what one series loses by
truncation. -/
def seriesLoss : Nat := 2 ^ (20 : Nat)

/-- An upper bound, in the same units, on what a whole logarithm loses. -/
def truncationLoss : Nat := 2 ^ (40 : Nat)

/-- The sum of `power / k + power * square / (k + 2) + …`, each term cut to a
whole number. -/
def oddSeries (bits square : Nat) : Nat → Nat → Nat → Nat
  | 0, _, _ => 0
  | fuel + 1, power, k =>
      if power = 0 then 0
      else
        power / k +
          oddSeries bits square fuel (power * square / 2 ^ bits) (k + 2)

/-- The natural logarithm of `(1 + z) / (1 - z)` with `z` a quotient of at most
one third. -/
def logOfRatio (bits numerator denominator : Nat) : Nat :=
  let z := numerator * 2 ^ bits / denominator
  2 * oddSeries bits (z * z / 2 ^ bits) bits z 1

def logTwo (bits : Nat) : Nat := logOfRatio bits 1 3

def logRest (bits numerator denominator : Nat) : Nat :=
  let power := 2 ^ (binaryExponent numerator denominator).toNat
  logOfRatio bits (numerator - denominator * power)
    (numerator + denominator * power)

/-- The natural logarithm, in units of `2 ^ -bits`, of a quotient of at least one. -/
def fixedLog (bits numerator denominator : Nat) : Nat :=
  (binaryExponent numerator denominator).toNat * logTwo bits +
    logRest bits numerator denominator

def fixedLogTwo (bits numerator denominator : Nat) : Nat :=
  (binaryExponent numerator denominator).toNat * 2 ^ bits +
    logRest bits numerator denominator * 2 ^ bits / (logTwo bits + seriesLoss)

/-- Rounds a fixed-point value at the first width where the error interval
rounds to one number. -/
def roundFixed (negative : Bool) (value : Nat → Nat) : List Nat → Double
  | [] => nan
  | [bits] => ofRatio negative (value bits) (2 ^ bits)
  | bits :: more =>
      let low := ofRatio negative (value bits) (2 ^ bits)
      if low = ofRatio negative (value bits + truncationLoss) (2 ^ bits) then low
      else roundFixed negative value more

def logBy (fixed : Nat → Nat → Nat → Nat) (numerator denominator : Nat) :
    Double :=
  if numerator = denominator then zero
  else if denominator < numerator then
    roundFixed false (fixed · numerator denominator) precisions
  else roundFixed true (fixed · denominator numerator) precisions

def logQuotient (numerator denominator : Nat) : Double :=
  logBy fixedLog numerator denominator

def isPowerOfTwo (n : Nat) : Bool := n == 2 ^ n.log2

def logTwoQuotient (numerator denominator : Nat) : Double :=
  if isPowerOfTwo numerator && isPowerOfTwo denominator then
    ofInt (numerator.log2 - denominator.log2)
  else logBy fixedLogTwo numerator denominator

def logarithm (quotient : Nat → Nat → Double) : Double → Double
  | nan => nan
  | infinite negative => if negative then nan else infinite false
  | finite negative m e =>
      if m = 0 then infinite true
      else if negative then nan
      else quotient (m * 2 ^ e.toNat) (2 ^ (-e).toNat)

def ln (x : Double) : Double := logarithm logQuotient x

def log2 (x : Double) : Double := logarithm logTwoQuotient x

def mantissa (n : Nat) : Double × Nat :=
  let bits := n.log2 + 1
  let m := ofRatio false n (2 ^ bits)
  if m = one then (ofRatio false 1 2, bits + 1) else (m, bits)

/-- The logarithm of a whole number of any size: past the greatest double, that
of its mantissa plus its exponent times the logarithm of two. -/
def logNat (log : Double → Double) (n : Nat) : Double :=
  if (ofNat n).isFinite then log (ofNat n)
  else
    let (m, exponent) := mantissa n
    add (log m) (mul (log (ofNat 2)) (ofNat exponent))

end SnippetGrowth.Double
