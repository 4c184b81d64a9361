import SnippetGrowth.Program.Script.Element
import SnippetGrowth.Program.Script.Statement

/-!
The syntax tree of a script.

`Tree.ofScript` is total: a text that is no script gives a tree with an error
at the place where reading stopped.  The depth of the recursion between goals
is bounded by a multiple of the length of the text, since only a few goals
follow one another without a token between them.
-/

namespace SnippetGrowth

namespace Script

def Grammar.rule (g : Grammar) : Goal → Reader Node
  | .statement => g.statementRule
  | .block => g.blockRule
  | .expression allowIn => g.expressionRule allowIn
  | .assignment allowIn typedArrow => g.assignmentRule allowIn typedArrow
  | .binary allowIn level => g.binaryRule allowIn level
  | .unary => g.unaryRule
  | .operand => g.operandRule
  | .constructed => g.constructedRule
  | .pattern => g.patternRule
  | .type => g.typeRule
  | .element => g.elementRule

/-- Reads a goal with at most `depth` goals open at a time. -/
def readGoal (bound : Nat) : Nat → Goal → Reader Node
  | 0, _ => Reader.fail
  | depth + 1, goal => (Grammar.mk bound (readGoal bound depth)).rule goal

def goalsPerCharacter : Nat := 16

def grammarFor (text : List Char) : Grammar where
  bound := text.length + 1
  read := readGoal (text.length + 1) (goalsPerCharacter * (text.length + 1))

def program (g : Grammar) : Reader Node := do
  let statements ← g.statements
  if (← Reader.token) ≠ .finish then Reader.fail
  return node "program" statements

def withoutInterpreter (text : List Char) : List Char :=
  match text with
  | '#' :: '!' :: rest => rest.dropWhile fun c => !isLineEnd c
  | _ => text

def positionAfter (text : List Char) : Position where
  row := text.count '\n'
  column := (text.reverse.takeWhile (· != '\n')).length

def failedAt (text stopped : List Char) : Tree where
  root :=
    { kind := "program"
      children := [
        { kind := "ERROR"
          text := String.ofList stopped
          position :=
            positionAfter (text.take (text.length - stopped.length)) }] }
  hasError := true

end Script

open Script in
def Tree.ofScript (source : String) : Tree :=
  let text := source.toList
  match program (grammarFor text) (Cursor.ofText (withoutInterpreter text)) with
  | .ok (script, _) =>
      if hasStrayDefault script then failedAt text text else { root := script }
  | .error stopped => failedAt text stopped

end SnippetGrowth
