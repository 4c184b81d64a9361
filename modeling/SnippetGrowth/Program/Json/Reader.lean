import SnippetGrowth.Program.Json.Basic
import SnippetGrowth.Numeral

/-!
Reading JSON.

The text of a value may have white space around it.  Beyond the standard,
infinities and not-a-number may stand by their names.  A whole number of more
digits than can be read is a fault of its own, apart from malformed text.
-/

namespace SnippetGrowth.Json

inductive Fault where
  | malformed
  | tooLong
  deriving DecidableEq, Repr

def isGap (c : Char) : Bool := c = ' ' || c = '\t' || c = '\n' || c = '\r'

def dropGap (input : List Char) : List Char := input.dropWhile isGap

def fourDigits? : List Char → Option (Nat × List Char)
  | a :: b :: c :: d :: rest => do
      if [a, b, c, d].any (127 < ·.toNat) then none
      let value ← Numeral.digitsIn? 16 [a, b, c, d]
      some (value, rest)
  | _ => none

def isHighHalf (unit : Nat) : Bool := 0xD800 ≤ unit && unit < 0xDC00

def isLowHalf (unit : Nat) : Bool := 0xDC00 ≤ unit && unit < 0xE000

def paired (high low : Nat) : Char :=
  Char.ofNat (0x10000 + (high - 0xD800) * 0x400 + (low - 0xDC00))

/-- A code unit after `\u`, with the other half of its pair if that follows. -/
def escapedUnit? (input : List Char) : Option (Option Char × List Char) := do
  let (unit, rest) ← fourDigits? input
  if isHighHalf unit then
    match (Text.after? ['\\', 'u'] rest).bind fourDigits? with
    | some (low, after) =>
        if isLowHalf low then some (some (paired unit low), after)
          else some (none, rest)
    | none => some (none, rest)
  else if isLowHalf unit then some (none, rest)
  else some (some (Char.ofNat unit), rest)

def shortEscapes : List (Char × Char) :=
  [('\x22', '\x22'), ('\\', '\\'), ('/', '/'), ('b', '\x08'), ('f', '\x0c'),
    ('n', '\n'), ('r', '\r'), ('t', '\t')]

def readText : Nat → List Char → Except Fault (Option (List Char) × List Char)
  | 0, _ => .error .malformed
  | fuel + 1, input =>
      let continued (unit : Option Char) (rest : List Char) :
          Except Fault (Option (List Char) × List Char) := do
        let (content, rest) ← readText fuel rest
        match unit, content with
        | some c, some content => .ok (some (c :: content), rest)
        | _, _ => .ok (none, rest)
      match input with
      | [] => .error .malformed
      | '\x22' :: rest => .ok (some [], rest)
      | '\\' :: 'u' :: rest =>
          match escapedUnit? rest with
          | some (unit, rest) => continued unit rest
          | none => .error .malformed
      | '\\' :: letter :: rest =>
          match shortEscapes.lookup letter with
          | some c => continued (some c) rest
          | none => .error .malformed
      | c :: rest =>
          if c.toNat < 32 then .error .malformed else continued (some c) rest

def textOf (content : Option (List Char)) : Option String :=
  content.map String.ofList

def wholeDigits? : List Char → Option (List Char × List Char)
  | '0' :: rest => some (['0'], rest)
  | input => Text.run? Char.isDigit input

def fraction (input : List Char) : List Char × List Char :=
  match input with
  | '.' :: rest =>
      match Text.run? Char.isDigit rest with
      | some (digits, rest) => ('.' :: digits, rest)
      | none => ([], input)
  | _ => ([], input)

def exponent (input : List Char) : List Char × List Char :=
  match input with
  | mark :: rest =>
      if mark = 'e' || mark = 'E' then
        let (sign, digits) :=
          match rest with
          | '+' :: digits => (['+'], digits)
          | '-' :: digits => (['-'], digits)
          | digits => ([], digits)
        match Text.run? Char.isDigit digits with
        | some (digits, rest) => (mark :: sign ++ digits, rest)
        | none => ([], input)
      else ([], input)
  | [] => ([], input)

def namedValues : List (String × Json) :=
  [("null", .null), ("true", .bool true), ("false", .bool false),
    ("NaN", .real .nan), ("Infinity", .real (.infinite false)),
    ("-Infinity", .real (.infinite true))]

def named? (input : List Char) : Option (Json × List Char) :=
  namedValues.findSome? fun (name, value) =>
    (Text.after? name.toList input).map fun rest => (value, rest)

def readNumber (input : List Char) : Except Fault (Json × List Char) :=
  let (sign, magnitude) :=
    match input with
    | '-' :: rest => (['-'], rest)
    | rest => ([], rest)
  match wholeDigits? magnitude with
  | none => .error .malformed
  | some (digits, rest) =>
      let (fraction, rest) := fraction rest
      let (exponent, rest) := exponent rest
      if fraction.isEmpty && exponent.isEmpty then
        match readDigits digits with
        | .ok n => .ok (.whole (if sign.isEmpty then n else -n), rest)
        | .error _ => .error .tooLong
      else
        match Numeral.decimal? (sign ++ digits ++ fraction ++ exponent) with
        | some x => .ok (.real x, rest)
        | none => .error .malformed

def readItems {α : Type} (item : List Char → Except Fault (α × List Char))
    (close : Char) :
    Nat → List Char → Except Fault (List α × List Char)
  | 0, _ => .error .malformed
  | fuel + 1, input => do
      let (first, rest) ← item (dropGap input)
      match dropGap rest with
      | c :: rest =>
          if c = close then .ok ([first], rest)
          else if c = ',' then
            let (others, rest) ← readItems item close fuel rest
            .ok (first :: others, rest)
          else .error .malformed
      | [] => .error .malformed

def readGroup {α : Type} (item : List Char → Except Fault (α × List Char))
    (close : Char) (fuel : Nat) (input : List Char) :
    Except Fault (List α × List Char) :=
  match dropGap input with
  | c :: rest =>
      if c = close then .ok ([], rest)
        else readItems item close fuel (c :: rest)
  | [] => .error .malformed

def readMember (value : List Char → Except Fault (Json × List Char)) (fuel : Nat)
    (input : List Char) : Except Fault ((Option String × Json) × List Char) :=
  match input with
  | '\x22' :: rest => do
      let (key, rest) ← readText fuel rest
      match dropGap rest with
      | ':' :: rest =>
          let (value, rest) ← value (dropGap rest)
          .ok ((textOf key, value), rest)
      | _ => .error .malformed
  | _ => .error .malformed

/-- The value at the start of a text; `fuel` exceeds the length of the text. -/
def readValue : Nat → List Char → Except Fault (Json × List Char)
  | 0, _ => .error .malformed
  | fuel + 1, input =>
      match input with
      | '\x22' :: rest => do
          let (content, rest) ← readText fuel rest
          .ok (.text (textOf content), rest)
      | '[' :: rest => do
          let (items, rest) ← readGroup (readValue fuel) ']' fuel rest
          .ok (.list items, rest)
      | '\x7b' :: rest => do
          let (members, rest) ← readGroup (readMember (readValue fuel) fuel)
            '\x7d' fuel rest
          .ok (.object members, rest)
      | _ =>
          match named? input with
          | some result => .ok result
          | none => readNumber input

def read (input : String) : Except Fault Json := do
  let characters := input.toList
  let (value, rest) ← readValue (characters.length + 1) (dropGap characters)
  if (dropGap rest).isEmpty then .ok value else .error .malformed

end SnippetGrowth.Json
