import SnippetGrowth.Profile

/-!
The analysis of a snippet: it is checked, assigned to a profile and scanned,
and its findings are combined.  A snippet that cannot be scanned has an error
and constant bounds.
-/

namespace SnippetGrowth

structure Analysis where
  inputSize : String := "n"
  time : Bound
  space : Bound
  findings : List Finding := []
  average : Bound
  error : Option String := none
  deriving DecidableEq, Repr

namespace Analysis

def lineLimit : Nat := 500

def emptyMessage : String := "Empty code input"

def tooLongMessage : String :=
  "Code exceeds " ++ toString lineLimit ++ " lines limit"

def ofError (message : String) : Analysis where
  time := .constant
  space := .constant
  average := .constant
  error := some message

def ofReport (report : Report) : Analysis :=
  match report.error with
  | some message => ofError message
  | none =>
      { time := report.time
        space := report.space
        findings := report.findings
        average := report.time }

end Analysis

def analyze (parse : Parser) (code : String) : Except Failure Analysis :=
  if (Text.strip code.toList).isEmpty then .ok (.ofError Analysis.emptyMessage)
  else if Analysis.lineLimit < (Text.lines code.toList).length then
    .ok (.ofError Analysis.tooLongMessage)
  else ((Profile.detect code).scan parse code).map Analysis.ofReport

end SnippetGrowth
