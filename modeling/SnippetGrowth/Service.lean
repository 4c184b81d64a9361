import SnippetGrowth.Curve
import SnippetGrowth.SelfCheck

/-!
The service: analysis, growth curves and the self-check as answers to
requests.

Messages are read and checked outside.  A validation gives the request that a
message makes, with all its values, or the response that refuses the message.
-/

namespace SnippetGrowth.Service

inductive Route where
  | analyze
  | growthCurve
  | selfCheck
  | health
  deriving DecidableEq, Repr

namespace Route

def all : List Route := [analyze, growthCurve, selfCheck, health]

def path : Route → String
  | analyze => "/analyze"
  | growthCurve => "/growth-curve"
  | selfCheck => "/self-check"
  | health => "/health"

def method : Route → String
  | analyze => "POST"
  | growthCurve => "POST"
  | selfCheck => "GET"
  | health => "GET"

end Route

inductive Request where
  | analyze (code : String)
  | growthCurve (label : String) (sizes : Option (List Int))
  | selfCheck
  | health
  deriving DecidableEq, Repr

inductive Body where
  | empty
  | plain (text : String)
  | detail (text : String)
  | analysis (result : Analysis)
  | curve (curve : Curve)
  | selfCheck (outcomes : List SelfCheck.Outcome)
  | health
  deriving DecidableEq, Repr

structure Response where
  status : Nat
  body : Body
  deriving DecidableEq, Repr

def serviceName : String := "complexity_estimator"

def failed : Response := ⟨500, .plain "Internal Server Error"⟩

def answerAnalysis (parse : Parser) (code : String) : Response :=
  match SnippetGrowth.analyze parse code with
  | .ok result => ⟨200, .analysis result⟩
  | .error failure =>
      ⟨500, .detail ("Internal analysis error: " ++ failure.message)⟩

def answerCurve (label : String) (sizes : List Int) : Response :=
  match Curve.sample label sizes with
  | .ok curve => ⟨200, .curve curve⟩
  | .error .zeroPower => failed
  | .error failure => ⟨400, .detail failure.message⟩

def answer (parse : Parser) : Request → Response
  | .analyze code => answerAnalysis parse code
  | .growthCurve label sizes => answerCurve label (sizes.getD Curve.defaultSizes)
  | .selfCheck =>
      match SelfCheck.outcomes parse with
      | .ok outcomes => ⟨200, .selfCheck outcomes⟩
      | .error _ => failed
  | .health => ⟨200, .health⟩

/-- The answer to the request that a message makes, or else its refusal. -/
def respond {Message : Type} (parse : Parser)
    (validate : Message → Except Response Request) (message : Message) :
    Response :=
  match validate message with
  | .ok request => answer parse request
  | .error refusal => refusal

end SnippetGrowth.Service
