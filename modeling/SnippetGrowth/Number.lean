import SnippetGrowth.Double.Logarithm
import SnippetGrowth.Double.Text
import SnippetGrowth.Failure

/-!
Numbers as they stand in snippets and questions: whole numbers of any size,
and doubles.
-/

namespace SnippetGrowth

inductive Number where
  | whole (n : Int)
  | real (x : Double)
  deriving DecidableEq, Repr

def wholeText (n : Int) : Except Failure String :=
  if n.natAbs < 10 ^ digitLimit then .ok (toString n) else .error .tooLongToWrite

namespace Number

def text : Number → Except Failure String
  | whole n => wholeText n
  | real x => .ok x.text

def ln : Number → Double
  | whole n =>
      if 0 < n then Double.logNat Double.ln n.toNat
      else if n = 0 then .infinite true
      else .nan
  | real x => x.ln

def ofDouble (x : Double) : Number :=
  match x.toInt? with
  | some n => whole n
  | none => real x

end Number

end SnippetGrowth
