import SnippetGrowth.Text.Blank
import SnippetGrowth.Text.Search

/-!
The origins from which the service may be called: a list divided by commas,
with blanks around an origin ignored and empty places left out.
-/

namespace SnippetGrowth

def originsFrom (text : List Char) : List (List Char) :=
  ((Text.split ',' text).map Text.strip).filter (!·.isEmpty)

def origins (text : String) : List String :=
  (originsFrom text.toList).map String.ofList

end SnippetGrowth
