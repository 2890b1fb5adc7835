import MigrationPlan.Tree
import MigrationPlan.Yaml.Cursor
import MigrationPlan.Yaml.Scalar

/- Data trees to YAML text in block style. Lists of a record are not indented, and a text is written
   in the plainest style that reads back as that text. -/
namespace MigrationPlan.Yaml
open Text

def isPrintable (c : Char) : Bool :=
  let n := c.toNat
  n == 0x0A || (0x20 ≤ n && n ≤ 0x7E) || (0xA0 ≤ n && n ≤ 0xD7FF)
    || (0xE000 ≤ n && n ≤ 0xFFFD && n != 0xFEFF) || 0x10000 ≤ n

def hasNeighbours (first second : Char → Bool) : List Char → Bool
  | a :: b :: rest => (first a && second b) || hasNeighbours first second (b :: rest)
  | _ => false

def isLeadingMark (c : Char) : Bool := "#,[]\x7b\x7d&*!|>'\"%@\x60".toList.contains c

def endsWord (s : List Char) : Bool := s.head?.all isSpaceOrBreak

def hasInnerMark (afterBlank : Bool) : List Char → Bool
  | [] => false
  | c :: rest =>
    (c == ':' && endsWord rest) || (c == '#' && afterBlank)
      || hasInnerMark (isSpaceOrBreak c) rest

def hasMark (s : List Char) : Bool :=
  "---".toList.isPrefixOf s || "...".toList.isPrefixOf s
    || match s with
      | [] => false
      | c :: rest =>
        isLeadingMark c || ((c == '?' || c == ':' || c == '-') && endsWord rest)
          || hasInnerMark (isSpaceOrBreak c) rest

def hasUnprintable (s : List Char) : Bool := s.any fun c => !isPrintable c

def spaceBeforeBreak (s : List Char) : Bool := hasNeighbours (· == ' ') isBreak s
def breakBeforeSpace (s : List Char) : Bool := hasNeighbours isBreak (· == ' ') s

def allowsPlain (s : List Char) : Bool :=
  !s.head?.any (· == ' ') && !s.getLast?.any (· == ' ') && !s.any isBreak &&
    !hasUnprintable s && !hasMark s

def allowsSingle (s : List Char) : Bool :=
  !spaceBeforeBreak s && !breakBeforeSpace s && !hasUnprintable s

def allowsLiteral (s : List Char) : Bool :=
  !s.getLast?.any (· == ' ') && !spaceBeforeBreak s && !hasUnprintable s

inductive TextStyle where
  | plain
  | single
  | double
  | literal
  deriving DecidableEq, Repr

def isAmbiguous (s : String) : Bool := resolve s != .text || hasLeadingZero s.toList

def styleOf (s : String) : TextStyle :=
  if s.contains '\n' then (if allowsLiteral s.toList then .literal else .double)
  else if !isAmbiguous s && allowsPlain s.toList then .plain
  else if allowsSingle s.toList then .single
  else .double

def pad (n : Nat) : List Char := List.replicate n ' '

def singleQuoted (indent : Nat) (afterBreak : Bool) : List Char → List Char
  | [] => if afterBreak then pad indent else []
  | c :: rest =>
    if isBreak c then c :: singleQuoted indent true rest
    else
      (if afterBreak then pad indent else []) ++ (if c == '\'' then [c, c] else [c])
        ++ singleQuoted indent false rest

def upperHexDigit (n : Nat) : Char := if n < 10 then Char.ofNat (48 + n) else Char.ofNat (55 + n)

def hexDigits : Nat → Nat → List Char
  | 0, _ => []
  | count + 1, n => hexDigits count (n / 16) ++ [upperHexDigit (n % 16)]

def shortEscapes : List (Char × Char) :=
  [('\x00', '0'), ('\x07', 'a'), ('\x08', 'b'), ('\t', 't'), ('\n', 'n'), ('\x0b', 'v'),
   ('\x0c', 'f'), ('\r', 'r'), ('\x1b', 'e'), ('"', '"'), ('\\', '\\'), ('\x85', 'N'),
   ('\u2028', 'L'), ('\u2029', 'P')]

def doubleQuotedChar (c : Char) : List Char :=
  match shortEscapes.lookup c with
  | some letter => ['\\', letter]
  | none =>
    if isPrintable c then [c]
    else if c.toNat < 0x100 then '\\' :: 'x' :: hexDigits 2 c.toNat
    else if c.toNat < 0x10000 then '\\' :: 'u' :: hexDigits 4 c.toNat
    else '\\' :: 'U' :: hexDigits 8 c.toNat

def literalHead (s : List Char) : List Char :=
  let indentation := if s.head?.any isSpaceOrBreak then ['2'] else []
  let ending := match s.reverse with
    | [] => ['-']
    | c :: rest => if !isBreak c then ['-'] else if rest.head?.all isBreak then ['+'] else []
  '|' :: (indentation ++ ending)

def literalLines (indent : Nat) (afterBreak : Bool) : List Char → List Char
  | [] => if afterBreak then [] else ['\n']
  | c :: rest =>
    if isBreak c then c :: literalLines indent true rest
    else (if afterBreak then pad indent else []) ++ c :: literalLines indent false rest

def textLines (indent : Nat) (s : String) : List Char :=
  match styleOf s with
  | .plain => s.toList ++ ['\n']
  | .single => '\'' :: singleQuoted indent false s.toList ++ ['\'', '\n']
  | .double => '"' :: s.toList.flatMap doubleQuotedChar ++ ['"', '\n']
  | .literal => literalHead s.toList ++ '\n' :: literalLines indent true s.toList

mutual

def itemLines (indent : Nat) : Tree → List Char
  | .null | .other => "null\n".toList
  | .flag b => (if b then "true\n" else "false\n").toList
  | .integer n => (toString n).toList ++ ['\n']
  | .text s => textLines indent s
  | .list [] => "[]\n".toList
  | .list (item :: items) => '-' :: ' ' :: itemLines (indent + 2) item ++ listLines indent items
  | .record [] => "\x7b\x7d\n".toList
  | .record ((key, value) :: members) =>
    key.toList ++ ':' :: memberLines indent value ++ recordLines indent members

def memberLines (indent : Nat) : Tree → List Char
  | .list (item :: items) => '\n' :: listLines indent (item :: items)
  | .record (member :: members) => '\n' :: recordLines (indent + 2) (member :: members)
  | value => ' ' :: itemLines (indent + 2) value

def listLines (indent : Nat) : List Tree → List Char
  | [] => []
  | item :: items =>
    pad indent ++ '-' :: ' ' :: itemLines (indent + 2) item ++ listLines indent items

def recordLines (indent : Nat) : List (String × Tree) → List Char
  | [] => []
  | (key, value) :: members =>
    pad indent ++ key.toList ++ ':' :: memberLines indent value ++ recordLines indent members

end

def write (t : Tree) : String := String.ofList (itemLines 0 t)

end MigrationPlan.Yaml
