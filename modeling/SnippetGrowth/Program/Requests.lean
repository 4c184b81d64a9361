import SnippetGrowth.Program.Json.Reader
import SnippetGrowth.Service

/-!
The validation of messages.

The route of a message is found by its path, and slashes at the end do not
count.  A body that is no JSON, or lacks what its route asks for, is refused.
A refusal quotes the values that it refuses, so it fails itself if one of them
cannot be written again.
-/

namespace SnippetGrowth.Program

open Service

inductive Payload where
  | absent
  | value (json : Json)
  | raw (text : String)

structure Message where
  method : String
  path : String
  payload : Payload := .absent

def withoutSlashes (path : String) : String :=
  String.ofList ((path.toList.reverse.dropWhile (· == '/')).reverse)

def routeOf? (path : String) : Option Route :=
  Route.all.find? (·.path = withoutSlashes path)

/-! ## Bodies -/

/-- The JSON value of a payload; a byte order mark in front of it does not count. -/
def bodyOf : Payload → Except Json.Fault Json
  | .absent => .ok .null
  | .value json => .ok json
  | .raw text =>
      match text.toList with
      | [] => .ok .null
      | '\ufeff' :: rest => Json.read (String.ofList rest)
      | _ => Json.read text

abbrev Refused := List Json

def textMember (body : Json) (key : String) : Except Refused String :=
  match body.get? key with
  | none => .error [body]
  | some value =>
      match value.string? with
      | some text => .ok text
      | none => .error [value]

def isSeparatedDigits (text : List Char) : Bool :=
  let parts := Text.split '_' text
  parts.all fun part => !part.isEmpty && part.all Char.isDigit

def wholeOfText? (text : String) : Option Int :=
  let (negative, magnitude) := Numeral.sign (Numeral.dropMargins text.toList)
  let (whole, fraction) := magnitude.span (· != '.')
  let digits := Numeral.withoutLowLines whole
  if isSeparatedDigits whole && (fraction.drop 1).all (· == '0') &&
      digits.length ≤ digitLimit then
    let value : Int := Text.digitsValue digits
    some (if negative then -value else value)
  else none

/-- A size as a whole number: truth values and texts count by the number they
stand for. -/
def size? : Json → Option Int
  | .whole n => some n
  | .real x => x.toInt?
  | .bool value => some (if value then 1 else 0)
  | .text (some text) => wholeOfText? text
  | _ => none

def sizesMember (body : Json) : Except Refused (Option (List Int)) :=
  match body.get? "sizes" with
  | none => .ok none
  | some .null => .ok none
  | some (.list items) =>
      match items.filter fun item => (size? item).isNone with
      | [] => .ok (some (items.filterMap size?))
      | refused => .error refused
  | some value => .error [value]

def isObject : Json → Bool
  | .object _ => true
  | _ => false

def analysisOf (body : Json) : Except Refused Request :=
  if isObject body then (textMember body "code").map Request.analyze
    else .error [body]

def curveOf (body : Json) : Except Refused Request :=
  if isObject body then
    match textMember body "label", sizesMember body with
    | .ok label, .ok sizes => .ok (.growthCurve label sizes)
    | .error first, .error second => .error (first ++ second)
    | .error refused, .ok _ => .error refused
    | .ok _, .error refused => .error refused
  else .error [body]

/-! ## Requests -/

def refuse (refused : Refused) : Response :=
  if refused.all Json.isWritable then ⟨422, .empty⟩ else failed

def readBody (read : Json → Except Refused Request) (payload : Payload) :
    Except Response Request :=
  match bodyOf payload with
  | .ok body => (read body).mapError refuse
  | .error .malformed => .error ⟨422, .empty⟩
  | .error .tooLong => .error ⟨400, .detail "There was an error parsing the body"⟩

def validate (message : Message) : Except Response Request :=
  match routeOf? message.path with
  | none => .error ⟨404, .detail "Not Found"⟩
  | some route =>
      if message.method ≠ route.method then
        .error ⟨405, .detail "Method Not Allowed"⟩
      else
        match route with
        | .analyze => readBody analysisOf message.payload
        | .growthCurve => readBody curveOf message.payload
        | .selfCheck => .ok .selfCheck
        | .health => .ok .health

end SnippetGrowth.Program
