import MigrationPlan.Tree
import MigrationPlan.Text.Numeral

/- The tokens of JSON text: brackets, separators and whole values without parts. -/
namespace MigrationPlan.Json
open Text

inductive Token where
  | listOpen
  | listClose
  | recordOpen
  | recordClose
  | comma
  | colon
  /-- A text; none when it holds half a surrogate pair. -/
  | text (value : Option String)
  | literal (value : Tree)

inductive Unit16 where
  | char (c : Char)
  | code (n : Nat)

def isSpace (c : Char) : Bool := c == ' ' || c == '\n' || c == '\t' || c == '\r'

def escapeOf? : Char → Option Char
  | '"' => some '"'
  | '\\' => some '\\'
  | '/' => some '/'
  | 'b' => some '\x08'
  | 'f' => some '\x0c'
  | 'n' => some '\n'
  | 'r' => some '\r'
  | 't' => some '\t'
  | _ => none

/-- A string's units, from behind the opening quote to behind the closing one; `done` are those
    read, last first. Control characters may not stand for themselves. -/
def readUnits (done : List Unit16) : List Char → Option (List Unit16 × List Char)
  | [] => none
  | '"' :: rest => some (done.reverse, rest)
  | '\\' :: 'u' :: a :: b :: c :: d :: rest =>
    match digits? 16 [a, b, c, d] with
    | some n => readUnits (.code n :: done) rest
    | none => none
  | '\\' :: e :: rest =>
    match escapeOf? e with
    | some c => readUnits (.char c :: done) rest
    | none => none
  | c :: rest => if c.toNat < 0x20 then none else readUnits (.char c :: done) rest

def isHigh (n : Nat) : Bool := 0xD800 ≤ n && n < 0xDC00

def isLow (n : Nat) : Bool := 0xDC00 ≤ n && n < 0xE000

def joinUnits : List Unit16 → Option (List Char)
  | [] => some []
  | .char c :: rest => (joinUnits rest).map (c :: ·)
  | .code high :: .code low :: rest =>
    if isHigh high then
      if isLow low then
        (joinUnits rest).map (Char.ofNat (0x10000 + (high - 0xD800) * 0x400 + (low - 0xDC00)) :: ·)
      else none
    else if isLow high then none
    else (joinUnits (.code low :: rest)).map (Char.ofNat high :: ·)
  | .code n :: rest =>
    if isHigh n || isLow n then none else (joinUnits rest).map (Char.ofNat n :: ·)

def spanDigits (s : List Char) : List Char × List Char := s.span fun c => '0' ≤ c && c ≤ '9'

def someDigits? (s : List Char) : Option (List Char × List Char) :=
  let (digits, rest) := spanDigits s
  if digits.isEmpty then none else some (digits, rest)

def wholePart? (s : List Char) : Option (List Char × List Char) :=
  match s with
  | '0' :: rest => some (['0'], rest)
  | _ => someDigits? s

def fraction? (s : List Char) : Option (Bool × List Char) :=
  match s with
  | '.' :: rest => (someDigits? rest).map fun p => (true, p.2)
  | _ => some (false, s)

def unsigned (s : List Char) : List Char :=
  match s with
  | '+' :: rest | '-' :: rest => rest
  | _ => s

def exponent? (s : List Char) : Option (Bool × List Char) :=
  match s with
  | 'e' :: rest | 'E' :: rest => (someDigits? (unsigned rest)).map fun p => (true, p.2)
  | _ => some (false, s)

def readNumber? (negative : Bool) (s : List Char) : Option (Tree × List Char) := do
  let (digits, s) ← wholePart? s
  let (hasFraction, s) ← fraction? s
  let (hasExponent, s) ← exponent? s
  let n ← digits? 10 digits
  if hasFraction || hasExponent || (negative && n == 0) then return (.other, s)
  else return (.integer (if negative then -(n : Int) else n), s)

def after? : List Char → List Char → Option (List Char)
  | [], s => some s
  | w :: word, c :: s => if w == c then after? word s else none
  | _ :: _, [] => none

def readWord? (s : List Char) : Option (Tree × List Char) :=
  ((after? "null".toList s).map fun r => (.null, r))
    <|> ((after? "true".toList s).map fun r => (.flag true, r))
    <|> ((after? "false".toList s).map fun r => (.flag false, r))

def token? : List Char → Option (Token × List Char)
  | '[' :: rest => some (.listOpen, rest)
  | ']' :: rest => some (.listClose, rest)
  | '{' :: rest => some (.recordOpen, rest)
  | '}' :: rest => some (.recordClose, rest)
  | ',' :: rest => some (.comma, rest)
  | ':' :: rest => some (.colon, rest)
  | '"' :: rest => (readUnits [] rest).map fun p => (.text ((joinUnits p.1).map String.ofList), p.2)
  | '-' :: rest => (readNumber? true rest).map fun p => (.literal p.1, p.2)
  | s => (readWord? s <|> readNumber? false s).map fun p => (.literal p.1, p.2)

/-- Each round takes one character or more, so as many rounds as characters suffice. -/
def tokensFrom (done : List Token) : Nat → List Char → Option (List Token)
  | _, [] => some done.reverse
  | 0, _ => none
  | fuel + 1, c :: rest =>
    if isSpace c then tokensFrom done fuel rest
    else
      match token? (c :: rest) with
      | some (t, rest) => tokensFrom (t :: done) fuel rest
      | none => none

def tokens (s : List Char) : Option (List Token) := tokensFrom [] s.length s

end MigrationPlan.Json
