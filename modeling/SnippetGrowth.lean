import SnippetGrowth.Origins
import SnippetGrowth.Service
import SnippetGrowth.Program.Requests
import SnippetGrowth.Program.Script.Source
import SnippetGrowth.Proofs.Outcome
import SnippetGrowth.Proofs.ScriptFindings
import SnippetGrowth.Proofs.Exponents
import SnippetGrowth.Proofs.Notations
import SnippetGrowth.Proofs.Limits
import SnippetGrowth.Proofs.Labels
import SnippetGrowth.Proofs.Space
import SnippetGrowth.Proofs.LineEnds
import SnippetGrowth.Proofs.LetterCase
import SnippetGrowth.Proofs.Likeness
import SnippetGrowth.Proofs.Renaming
import SnippetGrowth.Proofs.Parentheses
import SnippetGrowth.Proofs.Headers
import SnippetGrowth.Proofs.Appending
import SnippetGrowth.Proofs.Selection
import SnippetGrowth.Proofs.Sampling
import SnippetGrowth.Proofs.Branches
import SnippetGrowth.Proofs.Combination
import SnippetGrowth.Proofs.UpdateClauses
import SnippetGrowth.Proofs.ScriptRecursion
import SnippetGrowth.Proofs.BranchOrder
import SnippetGrowth.Proofs.PowerCurves
import SnippetGrowth.Proofs.Layouts
import SnippetGrowth.Proofs.HeaderTimes
import SnippetGrowth.Proofs.RangeSteps
import SnippetGrowth.Proofs.Nesting
import SnippetGrowth.Proofs.NestedLines
import SnippetGrowth.Proofs.CountedLoops
import SnippetGrowth.Proofs.LoopNests
import SnippetGrowth.Proofs.PermutationSpace
import SnippetGrowth.Proofs.Magnitudes
import SnippetGrowth.Proofs.DegenerateRecurrences
import SnippetGrowth.Proofs.Representable
import SnippetGrowth.Proofs.CurvePoints
import SnippetGrowth.Proofs.SettledLabels
import SnippetGrowth.Proofs.SyntaxFaults
import SnippetGrowth.Proofs.WholeCosts
import SnippetGrowth.Proofs.Detection
import SnippetGrowth.Proofs.OriginLists
import SnippetGrowth.Proofs.LabelClasses
import SnippetGrowth.Proofs.VisitOrder
import SnippetGrowth.Proofs.WholeLiterals
