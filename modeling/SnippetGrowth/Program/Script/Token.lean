import SnippetGrowth.Program.Script.Character
import SnippetGrowth.Text.Search

/-!
Tokens of scripts.

`Token.read` reads one token at the start of a text.  It never sees the inside
of a template or of a regular expression: a back quote is a token of its own,
and a slash is always a mark here, which the grammar reads anew where an
operand is due.
-/

namespace SnippetGrowth.Script

def marksFrom : Char → List String
  | '=' => ["===", "=>", "==", "="]
  | '!' => ["!==", "!=", "!"]
  | '+' => ["++", "+=", "+"]
  | '-' => ["--", "-=", "-"]
  | '*' => ["**=", "**", "*=", "*"]
  | '/' => ["/=", "/"]
  | '%' => ["%=", "%"]
  | '&' => ["&&=", "&&", "&=", "&"]
  | '|' => ["||=", "||", "|=", "|"]
  | '^' => ["^=", "^"]
  | '<' => ["<<=", "<<", "<=", "<"]
  | '>' => [">>>=", ">>>", ">>=", ">>", ">=", ">"]
  | '?' => ["??=", "??", "?.", "?"]
  | '.' => ["...", "."]
  | '\x7b' => ["\x7b"]
  | '\x7d' => ["\x7d"]
  | c => if "()[];,~:@".toList.contains c then [String.singleton c] else []

/-- The longest mark at the start of a text. A question mark before a decimal
point that starts a number stands alone. -/
def leadingMark? (text : List Char) : Option (String × List Char) :=
  match text with
  | '?' :: '.' :: digit :: rest =>
      if digit.isDigit then some ("?", '.' :: digit :: rest)
        else some ("?.", digit :: rest)
  | c :: _ =>
      (marksFrom c).findSome? fun mark =>
        (Text.after? mark.toList text).map fun rest => (mark, rest)
  | [] => none

def digitRun (inClass : Char → Bool) : List Char → List Char × List Char
  | [] => ([], [])
  | '_' :: c :: rest =>
      if inClass c then
        let (run, rest) := digitRun inClass rest
        ('_' :: c :: run, rest)
      else ([], '_' :: c :: rest)
  | c :: rest =>
      if inClass c then
        let (run, rest) := digitRun inClass rest
        (c :: run, rest)
      else ([], c :: rest)

def digits? (inClass : Char → Bool) (text : List Char) :
    Option (List Char × List Char) :=
  match text with
  | c :: _ => if inClass c then some (digitRun inClass text) else none
  | [] => none

def baseDigits? (letter : Char) : Option (Char → Bool) :=
  match letter.toLower with
  | 'x' => some isHexDigit
  | 'o' => some fun c => '0' ≤ c && c ≤ '7'
  | 'b' => some fun c => c = '0' || c = '1'
  | _ => none

def exponentPart (text : List Char) : List Char × List Char :=
  match text with
  | e :: sign :: rest =>
      if e = 'e' || e = 'E' then
        if sign = '+' || sign = '-' then
          match digits? Char.isDigit rest with
          | some (run, rest) => (e :: sign :: run, rest)
          | none => ([], text)
        else
          match digits? Char.isDigit (sign :: rest) with
          | some (run, rest) => (e :: run, rest)
          | none => ([], text)
      else ([], text)
  | _ => ([], text)

def fractionPart (text : List Char) : List Char × List Char :=
  match text with
  | '.' :: rest =>
      match digits? Char.isDigit rest with
      | some (run, rest) => ('.' :: run, rest)
      | none => (['.'], rest)
  | _ => ([], text)

/-- Whether a point or an exponent may follow whole digits: a zero in front of
other digits is followed by one that is no zero. -/
def takesFraction : List Char → Bool
  | ['0'] => true
  | '0' :: c :: _ => c.isDigit && c != '0'
  | _ => true

def decimalNumeral? (text : List Char) : Option (List Char × List Char) :=
  (digits? Char.isDigit text).map fun (whole, rest) =>
    match rest with
    | 'n' :: rest => (whole ++ ['n'], rest)
    | _ =>
        if takesFraction whole then
          let (fraction, rest) := fractionPart rest
          let (exponent, rest) := exponentPart rest
          (whole ++ fraction ++ exponent, rest)
        else (whole, rest)

def leadingNumeral? (text : List Char) : Option (List Char × List Char) :=
  match text with
  | '0' :: letter :: rest =>
      match baseDigits? letter with
      | some inClass =>
          (digits? inClass rest).map fun (run, rest) =>
            match rest with
            | 'n' :: rest => ('0' :: letter :: run ++ ['n'], rest)
            | _ => ('0' :: letter :: run, rest)
      | none => decimalNumeral? text
  | '.' :: rest =>
      (digits? Char.isDigit rest).map fun (run, rest) =>
        let (exponent, rest) := exponentPart rest
        ('.' :: run ++ exponent, rest)
  | _ => decimalNumeral? text

inductive Token where
  | name (text : String)
  | privateName (text : String)
  | number (text : String)
  | quoted
  | mark (text : String)
  | backQuote
  | finish
  | invalid
  deriving DecidableEq, Repr

def startsName : List Char → Bool
  | c :: _ => isNamePart c || c = '\\'
  | [] => false

/-- The characters of a name, after passing over `skip` characters of an escape. -/
def nameRun : Nat → List Char → List Char × List Char
  | _, [] => ([], [])
  | skip + 1, c :: rest =>
      let (run, rest) := nameRun skip rest
      (c :: run, rest)
  | 0, c :: rest =>
      let length :=
        match c, rest with
        | '\\', 'u' :: code => (codePointLength? code).map (· + 1)
        | _, _ => if isNamePart c then some 0 else none
      match length with
      | some skip =>
          let (run, rest) := nameRun skip rest
          (c :: run, rest)
      | none => ([], c :: rest)

def leadingName? (text : List Char) : Option (String × List Char) :=
  match text with
  | c :: _ =>
      if isNameStart c || c = '\\' then
        match nameRun 0 text with
        | ([], _) => none
        | (run, rest) => some (String.ofList run, rest)
      else none
  | [] => none

def afterQuoted? (mark : Char) : Nat → List Char → Option (List Char)
  | _, [] => none
  | skip + 1, _ :: rest => afterQuoted? mark skip rest
  | 0, c :: rest =>
      if c = mark then some rest
      else if c = '\n' || c = '\r' then none
      else if c = '\\' then
        match escapeLength? rest with
        | some length => afterQuoted? mark length rest
        | none => none
      else afterQuoted? mark 0 rest

namespace Token

def read (text : List Char) : Token × List Char :=
  match text with
  | [] => (finish, [])
  | '\x60' :: rest => (backQuote, rest)
  | '#' :: rest =>
      match leadingName? rest with
      | some (word, rest) => (privateName word, rest)
      | none => (invalid, rest)
  | c :: rest =>
      if c = '\x22' || c = '\x27' then
        match afterQuoted? c 0 rest with
        | some rest => (quoted, rest)
        | none => (invalid, rest)
      else
        match leadingName? text, leadingNumeral? text, leadingMark? text with
        | some (word, rest), _, _ => (name word, rest)
        | none, some (numeral, rest), _ =>
            if startsName rest then (invalid, rest)
              else (number (String.ofList numeral), rest)
        | none, none, some (sign, rest) => (mark sign, rest)
        | none, none, none => (invalid, rest)

end Token

inductive Gap where
  | blanks
  | lineComment
  | blockComment

/-- Passes over a stretch of blanks and comments; the flag tells whether a line
ended so far. -/
def skipGap : Gap → Bool → List Char → Bool × List Char
  | _, newline, [] => (newline, [])
  | .lineComment, newline, c :: rest =>
      if isLineEnd c then skipGap .blanks true rest
        else skipGap .lineComment newline rest
  | .blockComment, newline, '*' :: '/' :: rest => skipGap .blanks newline rest
  | .blockComment, newline, c :: rest =>
      skipGap .blockComment (newline || isLineEnd c) rest
  | .blanks, newline, '/' :: '/' :: rest => skipGap .lineComment newline rest
  | .blanks, newline, '/' :: '*' :: rest =>
      if Text.occursIn ['*', '/'] rest then skipGap .blockComment newline rest
      else (newline, '/' :: '*' :: rest)
  | .blanks, newline, '<' :: '!' :: '-' :: '-' :: rest =>
      skipGap .lineComment newline rest
  | .blanks, newline, c :: rest =>
      if isLineEnd c then skipGap .blanks true rest
      else if isSpace c then skipGap .blanks newline rest
      else (newline, c :: rest)

structure Cursor where
  /-- The text after the token before this one. -/
  origin : List Char
  /-- Whether a line ends between the token before and this one. -/
  newline : Bool
  /-- The text from the token on. -/
  start : List Char
  token : Token
  /-- The text after the token. -/
  rest : List Char

namespace Cursor

def ofText (text : List Char) : Cursor :=
  let (newline, start) := skipGap .blanks false text
  let (token, rest) := Token.read start
  ⟨text, newline, start, token, rest⟩

end Cursor

end SnippetGrowth.Script
