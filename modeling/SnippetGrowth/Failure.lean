import SnippetGrowth.Text.Quoted

/-!
The ways in which an operation of this library gives no answer, and the text
of each.  Failures that an analysis reports as part of its answer are not
among them.
-/

namespace SnippetGrowth

/-- The greatest count of decimal digits that is read or written. -/
def digitLimit : Nat := 4300

inductive Failure where
  /-- A whole number of more than `digitLimit` digits is to be written. -/
  | tooLongToWrite
  /-- A run of more than `digitLimit` digits is to be read. -/
  | tooLongToRead (digits : Nat)
  /-- A text with the beginning of a whole numeral of base 2, 8 or 16 is not
  one. -/
  | notWhole (text : String)
  | notDecimal (text : String)
  | noParenthesis
  | negativeSize
  | unknownWork (text : String)
  | zeroPower
  deriving DecidableEq, Repr

namespace Failure

def limitAdvice : String :=
  "use sys.set_int_max_str_digits() to increase the limit"

def limitText : String :=
  "Exceeds the limit (" ++ toString digitLimit ++
    " digits) for integer string conversion"

def message : Failure → String
  | tooLongToWrite => limitText ++ "; " ++ limitAdvice
  | tooLongToRead digits =>
      limitText ++ ": value has " ++ toString digits ++ " digits; " ++ limitAdvice
  | notWhole text => "invalid literal for int() with base 0: " ++ Text.quote text
  | notDecimal text => "could not convert string to float: " ++ Text.quote text
  | noParenthesis => "substring not found"
  | negativeSize => "Input sizes must be non-negative"
  | unknownWork text => Text.quote text ++ " is not a valid ExtraWork"
  | zeroPower => "0.0 cannot be raised to a negative power"

end Failure

end SnippetGrowth
