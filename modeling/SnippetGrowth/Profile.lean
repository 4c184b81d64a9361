import SnippetGrowth.Scan.Constructs
import SnippetGrowth.Scan.Counted
import SnippetGrowth.Scan.Headers
import SnippetGrowth.Scan.Ranges

/-!
Language profiles.

A snippet is assigned to the first profile one of whose markers stands in it,
in any case, once the white space around it is removed; a snippet without a
marker is taken for a script.  Each profile has its own scan; that of scripts
looks at the tree that a parser gives, which is a parameter.

The markers have letters of the basic Latin alphabet only.  Of the characters
outside it two become such letters in lower case, the dotted capital I, which
keeps its dot behind the letter, and the Kelvin sign.  No marker ends in `i` or
has a `k`, so it is enough to lower the basic Latin letters.
-/

namespace SnippetGrowth

inductive Profile where
  | c
  | python
  | pascal
  | javascript
  deriving DecidableEq, Repr

namespace Profile

def name : Profile → String
  | c => "c"
  | python => "python"
  | pascal => "pascal"
  | javascript => "javascript"

def ofName (text : String) : Profile :=
  ([c, python, pascal].find? (·.name = text)).getD javascript

def markers : List (Profile × List String) :=
  [(c, ["#include", "int main", "void "]),
    (python, ["def ", "import ", "print("]),
    (pascal, ["program ", "begin", "end;"])]

def normalized (code : List Char) : List Char :=
  (Text.strip code).map Char.toLower

def detect (code : String) : Profile :=
  let text := normalized code.toList
  let marked := markers.find? fun (_, words) => words.any fun word =>
    Text.occursIn word.toList text
  match marked with
  | some (profile, _) => profile
  | none => javascript

def scan (profile : Profile) (parse : Parser) (code : String) :
    Except Failure Report :=
  match profile with
  | c => Scan.scanHeaders code.toList
  | python => Scan.scanRanges code.toList
  | pascal => Scan.scanCounted code.toList
  | javascript => Scan.scanTree (parse code)

end Profile

end SnippetGrowth
