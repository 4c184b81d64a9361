import SnippetGrowth.Double.Logarithm

/-!
Powers of whole numbers, rounded to the nearest double.

The exponent is a double, so it is `k / 2 ^ j` for whole numbers `k` and `j`
with `k` odd or `j` zero.  The power is rational exactly when `j` square roots
of the base come out whole; then it is rounded from its exact value.
Otherwise it is irrational, and fixed-point bounds on it decide the rounding
as they do for logarithms.
-/

namespace SnippetGrowth.Double

/-- The greatest whole number whose square is at most `n`, found bit by bit from
above. -/
def floorRoot (n : Nat) : Nat :=
  (List.range (n.log2 / 2 + 1)).reverse.foldl
    (fun root bit => if (root + 2 ^ bit) ^ (2 : Nat) ≤ n then root + 2 ^ bit
      else root) 0

def wholeRoot? : Nat → Nat → Option Nat
  | 0, n => some n
  | times + 1, n =>
      let root := floorRoot n
      if root ^ (2 : Nat) = n then wholeRoot? times root else none

/-- A positive finite magnitude as an odd number over or times a power of two. -/
def reduced : Nat → Nat → Int → Nat × Int
  | 0, m, e => (m, e)
  | fuel + 1, m, e => if m % 2 = 0 then reduced fuel (m / 2) (e + 1) else (m, e)

/-- `exp` of `x / 2 ^ bits` in units of `2 ^ -bits`, each term of the series cut. -/
def expSeries (bits x : Nat) : Nat → Nat → Nat → Nat
  | 0, _, _ => 0
  | fuel + 1, term, k =>
      if term = 0 then 0
      else term + expSeries bits x fuel (term * x / (2 ^ bits * k)) (k + 1)

def fixedExpTwo (bits fraction : Nat) : Nat :=
  expSeries bits (fraction * logTwo bits / 2 ^ bits) bits (2 ^ bits) 1

/-- Two to the power `value / 2 ^ bits`, from below, with `slack` added to the
mantissa. -/
def expTwo (bits : Nat) (value : Int) (slack : Nat) : Double :=
  let whole := value / 2 ^ bits
  let fraction := (value - whole * 2 ^ bits).toNat
  ofScaled false (fixedExpTwo bits fraction + slack) (whole - bits)

def extremePower (inverse : Bool) : Double :=
  if inverse then zero else infinite false

/-- An irrational power: the product of the exponent and the logarithm decides it. -/
def irrationalPower (base : Nat) (negative : Bool) (k : Nat) (e : Int) :
    List Nat → Double
  | [] => nan
  | bits :: more =>
      let magnitude := k * fixedLogTwo bits base 1 * 2 ^ e.toNat / 2 ^ (-e).toNat
      let product : Int := if negative then -(magnitude : Int) else magnitude
      if 1100 ≤ magnitude / 2 ^ bits then extremePower negative
      else
        let loss : Int := 2 ^ (20 : Nat) * truncationLoss
        let low := expTwo bits (product - loss) 0
        let high := expTwo bits (product + loss) truncationLoss
        if low = high || more.isEmpty then low
          else irrationalPower base negative k e more

def rationalPower (root : Nat) (negative : Bool) (k : Nat) : Double :=
  if 1100 ≤ root.log2 * k then extremePower negative
  else if negative then ofRatio false 1 (root ^ k)
  else ofRatio false (root ^ k) 1

/-- A whole base of at least two to a nonzero finite exponent `± m * 2 ^ e`. -/
def powFinite (base : Nat) (negative : Bool) (m : Nat) (e : Int) : Double :=
  let (k, e) := reduced 53 m e
  if 64 ≤ e then extremePower negative
  else
    match wholeRoot? (-e).toNat base with
    | some root => rationalPower root negative (k * 2 ^ e.toNat)
    | none => irrationalPower base negative k e precisions

/-- A positive whole base to any exponent but zero; of an infinite one only the
side matters. -/
def powNat (base : Nat) : Double → Double
  | nan => if base = 1 then one else nan
  | infinite negative => if base = 1 then one else extremePower negative
  | finite negative m e =>
      if m = 0 || base = 1 then one else powFinite base negative m e

end SnippetGrowth.Double
