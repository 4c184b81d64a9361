import SnippetGrowth.Text.Blank
import SnippetGrowth.Text.Word

/-!
Finding things in a text from left to right.

A recogniser decides at one position: it sees the character before the
position and the text from there on, and answers with what it found and the
text after it.  `allMatches` collects what is found at the leftmost positions
that do not overlap an earlier find; `firstMatch?` stops at the first one.
-/

namespace SnippetGrowth.Scan

open Text

abbrev Recogniser (α : Type) := Option Char → List Char → Option (α × List Char)

/-- Passes over `skip` characters and collects what is found in the rest. -/
def matchesFrom {α : Type} (recognise : Recogniser α) :
    Option Char → Nat → List Char → List α
  | _, _, [] => []
  | _, skip + 1, c :: rest => matchesFrom recognise (some c) skip rest
  | previous, 0, c :: rest =>
      match recognise previous (c :: rest) with
      | some (found, after) =>
          found :: matchesFrom recognise (some c)
            (rest.length - after.length) rest
      | none => matchesFrom recognise (some c) 0 rest

def allMatches {α : Type} (recognise : Recogniser α) (text : List Char) :
    List α :=
  matchesFrom recognise none 0 text

def firstMatchFrom? {α : Type} (recognise : Recogniser α) :
    Option Char → List Char → Option α
  | _, [] => none
  | previous, c :: rest =>
      match recognise previous (c :: rest) with
      | some (found, _) => some found
      | none => firstMatchFrom? recognise (some c) rest

def firstMatch? {α : Type} (recognise : Recogniser α) (text : List Char) :
    Option α :=
  firstMatchFrom? recognise none text

def wordBoundary (previous next : Option Char) : Bool :=
  previous.any isWord != next.any isWord

def closed? (text : List Char) : Option (List Char × List Char) :=
  match text.span (· != ')') with
  | (_, []) => none
  | (inside, _ :: rest) => some (inside, rest)

def parenthesized? (text : List Char) : Option (List Char × List Char) :=
  (after? ['('] (dropBlanks text)).bind closed?

def passed (text rest : List Char) : List Char :=
  text.take (text.length - rest.length)

end SnippetGrowth.Scan
