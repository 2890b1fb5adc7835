/- A place in YAML text, with the line and the column that indentation is measured by. -/
namespace MigrationPlan.Yaml

structure Cursor where
  rest : List Char
  /-- No fewer than the characters that are left. -/
  bound : Nat := rest.length
  index : Nat := 0
  line : Nat := 0
  column : Nat := 0

def isSpace (c : Char) : Bool := c == ' ' || c == '\t'

def isBreak (c : Char) : Bool :=
  c == '\r' || c == '\n' || c == '\u0085' || c == '\u2028' || c == '\u2029'

def isSpaceOrBreak (c : Char) : Bool := isSpace c || isBreak c

def octetCount (s : List Char) : Nat := s.foldl (fun n c => n + c.utf8Size) 0

def isNameChar (c : Char) : Bool := c.isAlphanum || c == '-' || c == '_'

def isAllowed (c : Char) : Bool :=
  let n := c.toNat
  n == 0x09 || n == 0x0A || n == 0x0D || (0x20 ≤ n && n ≤ 0x7E) || n == 0x85 ||
    (0xA0 ≤ n && n ≤ 0xFFFD)
    || 0x10000 ≤ n

namespace Cursor

def peek? (c : Cursor) : Option Char := c.rest.head?

def startsWith (c : Cursor) (p : Char → Bool) : Bool := c.rest.head?.any p

def isAt (c : Cursor) (x : Char) : Bool := c.rest.head? == some x

def blankAhead (c : Cursor) (n : Nat) : Bool := (c.rest.drop n).head?.all isSpaceOrBreak

def atLineEnd (c : Cursor) : Bool := c.rest.head?.all isBreak

def skip (c : Cursor) (n : Nat) : Cursor :=
  { c with
    rest := c.rest.drop n, index := c.index + octetCount (c.rest.take n), column := c.column + n }

def skipWhile (c : Cursor) (p : Char → Bool) : Cursor := c.skip (c.rest.takeWhile p).length

def skipBreak (c : Cursor) : Cursor :=
  match c.rest with
  | '\r' :: '\n' :: rest => { c with rest, index := c.index + 2, line := c.line + 1, column := 0 }
  | x :: rest => { c with rest, index := c.index + x.utf8Size, line := c.line + 1, column := 0 }
  | [] => c

def breakText (c : Cursor) : List Char :=
  match c.rest with
  | x :: _ => if x == '\u2028' || x == '\u2029' then [x] else if isBreak x then ['\n'] else []
  | [] => []

def skipComment (c : Cursor) : Cursor :=
  if c.isAt '#' then c.skipWhile (! isBreak ·) else c

def atDocumentMark (c : Cursor) : Bool :=
  c.column == 0 && c.blankAhead 3
    && (c.rest.take 3 == ['-', '-', '-'] || c.rest.take 3 == ['.', '.', '.'])

end Cursor

end MigrationPlan.Yaml
