import SnippetGrowth.Double.Power
import SnippetGrowth.Numeral

/-!
Growth curves: the cost of a growth label at given input sizes.

The label selects a function by the first part that stands in it, most
dominant first.  A value that no double holds is left out of the curve.  Zero
has no negative power, so a curve of one fails at size zero, as does every
curve with a negative size.
-/

namespace SnippetGrowth

inductive GrowthFunction where
  | factorial
  | cube
  | square
  | linearithmic
  | logarithm
  | power (exponent : Double)
  | identity
  | one
  deriving DecidableEq, Repr

namespace GrowthFunction

open Text

def decimalPlaces : List Char → List Char
  | '.' :: fraction =>
    ((run? isDigit fraction).map fun found => '.' :: found.1).getD []
  | _ => []

def unsignedNumeral? (text : List Char) : Option (List Char) :=
  (run? isDigit text).map fun found => found.1 ++ decimalPlaces found.2

/-- A decimal numeral at the start of a text: an optional minus, digits, and a
point with digits. -/
def exponentNumeral? : List Char → Option (List Char)
  | '-' :: magnitude => (unsignedNumeral? magnitude).map ('-' :: ·)
  | text => unsignedNumeral? text

/-- The numeral after the first `n^` that has one. -/
def firstExponent? : List Char → Option (List Char)
  | [] => none
  | c :: rest =>
      match (after? ['n', '^'] (c :: rest)).bind exponentNumeral? with
      | some numeral => some numeral
      | none => firstExponent? rest

def ofLabel (label : String) : GrowthFunction :=
  let holds (part : String) := occursIn part.toList label.toList
  if holds "n!" then factorial
  else if holds "n³" || holds "n^3" then cube
  else if holds "n²" || holds "n^2" then square
  else if holds "n log n" then linearithmic
  else if holds "log n" then logarithm
  else
    match (firstExponent? label.toList).bind Numeral.decimal? with
    | some exponent => power exponent
    | none => if holds "n" then identity else one

def greatestFactorial : Nat := 170

def factorialOf : Nat → Nat
  | 0 => 1
  | n + 1 => (n + 1) * factorialOf n

def sizeValue? (n : Nat) : Option Double :=
  let x := Double.ofNat n
  if x.isFinite then some x else none

/-- A power of a size that a double holds. Zero has no negative power, but an
infinite one. -/
def sizePower (n : Nat) (exponent : Double) : Except Failure Double :=
  let rounded := ((Double.ofNat n).toInt?.getD 0).toNat
  if exponent.isZero then .ok .one
  else if rounded = 0 then
    match exponent with
    | .infinite true => .ok (.infinite false)
    | .finite true _ _ => .error .zeroPower
    | _ => .ok .zero
  else .ok (Double.powNat rounded exponent)

/-- The value before it is tested for being finite; `none` where a size is too large. -/
def rawValue (n : Nat) : GrowthFunction → Except Failure (Option Double)
  | factorial =>
      if greatestFactorial < n then (wholeText n).map fun _ => none
      else .ok (some (Double.ofNat (factorialOf n)))
  | cube => powerValue n (Double.ofNat 3)
  | square => powerValue n (Double.ofNat 2)
  | linearithmic =>
      if n = 0 then .ok (some .zero)
      else .ok ((sizeValue? n).map (·.mul (Double.logNat Double.log2 n)))
  | logarithm =>
      .ok (some (if n = 0 then .infinite true else Double.logNat Double.log2 n))
  | power exponent => powerValue n exponent
  | identity => .ok (sizeValue? n)
  | one => .ok (some .one)
where
  powerValue (n : Nat) (exponent : Double) : Except Failure (Option Double) :=
    match sizeValue? n with
    | some _ => (sizePower n exponent).map some
    | none => .ok none

def value (f : GrowthFunction) (n : Nat) : Except Failure (Option Double) :=
  (f.rawValue n).map fun raw => raw.filter Double.isFinite

end GrowthFunction

structure Curve where
  label : String
  sizes : List Int
  values : List (Option Double)
  deriving DecidableEq, Repr

namespace Curve

def defaultSizes : List Int := [1, 10, 100, 1000, 10000]

def sample (label : String) (sizes : List Int) : Except Failure Curve :=
  if sizes.any (· < 0) then .error .negativeSize
  else do
    let values ← sizes.mapM fun n => (GrowthFunction.ofLabel label).value n.toNat
    .ok ⟨label, sizes, values⟩

end Curve

end SnippetGrowth
