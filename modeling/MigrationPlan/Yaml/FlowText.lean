import MigrationPlan.Text.Numeral
import MigrationPlan.Yaml.Cursor

/- Scalars that flow over lines: plain and quoted ones. Between two words white space stays as it
   is; a line break with the white space around it reads as one space, and further line breaks stand
   for themselves. -/
namespace MigrationPlan.Yaml
open Text

structure Gap where
  spaces : List Char := []
  firstBreak : List Char := []
  moreBreaks : List Char := []
  broken : Bool := false

namespace Gap

def text (g : Gap) : List Char :=
  if g.broken then
    if g.firstBreak == ['\n'] then if g.moreBreaks.isEmpty then [' '] else g.moreBreaks
    else g.firstBreak ++ g.moreBreaks
  else g.spaces

def addBreak (g : Gap) (lineBreak : List Char) : Gap :=
  if g.broken then { g with moreBreaks := g.moreBreaks ++ lineBreak }
  else { g with spaces := [], firstBreak := lineBreak, broken := true }

/-- Reads white space to its end. On a further line no tab may stand left of column `indent`. -/
def read (indent : Nat) : Nat → Gap → Cursor → Option (Gap × Cursor)
  | 0, g, c => some (g, c)
  | fuel + 1, g, c =>
    match c.peek? with
    | none => some (g, c)
    | some x =>
      if isSpace x then
        if g.broken then
          if x == '\t' && c.column < indent then none else read indent fuel g (c.skip 1)
        else read indent fuel { g with spaces := g.spaces ++ [x] } (c.skip 1)
      else if isBreak x then read indent fuel (g.addBreak c.breakText) c.skipBreak
      else some (g, c)

end Gap

def escapeOf? : Char → Option Char
  | '0' => some '\x00'
  | 'a' => some '\x07'
  | 'b' => some '\x08'
  | 't' | '\t' => some '\t'
  | 'n' => some '\n'
  | 'v' => some '\x0b'
  | 'f' => some '\x0c'
  | 'r' => some '\r'
  | 'e' => some '\x1b'
  | ' ' => some ' '
  | '"' => some '"'
  | '/' => some '/'
  | '\\' => some '\\'
  | 'N' => some '\u0085'
  | '_' => some '\u00a0'
  | 'L' => some '\u2028'
  | 'P' => some '\u2029'
  | _ => none

def codeLength? : Char → Option Nat
  | 'x' => some 2
  | 'u' => some 4
  | 'U' => some 8
  | _ => none

def charOfCode? (digits : List Char) (length : Nat) : Option Char :=
  if digits.length < length then none
  else
    (digits? 16 digits).bind fun n =>
      if (0xD800 ≤ n && n ≤ 0xDFFF) || n > 0x10FFFF then none else some (Char.ofNat n)

def quotedWord (single : Bool) : Nat → List Char → Cursor → Option (List Char × Bool × Cursor)
  | 0, done, c => some (done, false, c)
  | fuel + 1, done, c =>
    match c.rest with
    | [] => some (done, false, c)
    | x :: rest =>
      if isSpaceOrBreak x then some (done, false, c)
      else if single then
        if x == '\'' then
          if rest.head? == some '\'' then quotedWord single fuel ('\'' :: done) (c.skip 2)
          else some (done, false, c)
        else quotedWord single fuel (x :: done) (c.skip 1)
      else if x == '"' then some (done, false, c)
      else if x == '\\' then
        match rest with
        | [] => none
        | e :: rest =>
          if isBreak e then some (done, true, (c.skip 1).skipBreak)
          else
            match escapeOf? e, codeLength? e with
            | some y, _ => quotedWord single fuel (y :: done) (c.skip 2)
            | none, some n =>
              match charOfCode? (rest.take n) n with
              | some y => quotedWord single fuel (y :: done) (c.skip (2 + n))
              | none => none
            | none, none => none
      else quotedWord single fuel (x :: done) (c.skip 1)

def quotedFrom (single : Bool) : Nat → List Char → Cursor → Option (List Char × Cursor)
  | 0, _, _ => none
  | fuel + 1, done, c =>
    if c.atDocumentMark || c.rest.isEmpty then none
    else
      match quotedWord single c.bound done c with
      | none => none
      | some (done, broken, c) =>
        if c.isAt (if single then '\'' else '"') then some (done.reverse, c.skip 1)
        else
          match Gap.read 0 c.bound { broken } c with
          | none => none
          | some (gap, c) => quotedFrom single fuel (gap.text.reverse ++ done) c

def readQuoted (single : Bool) (c : Cursor) : Option (List Char × Cursor) :=
  quotedFrom single (c.bound + 1) [] (c.skip 1)

def isFlowIndicator (c : Char) : Bool := c == ',' || c == '[' || c == ']' || c == '{' || c == '}'

/-- A word of a plain scalar, last character first. It ends at white space, at a colon with white
    space behind it and, inside flow brackets, at an indicator; there a colon may not stand before
    an indicator. -/
def plainWord (flow : Bool) : Nat → List Char → Cursor → Option (List Char × Cursor)
  | 0, done, c => some (done, c)
  | fuel + 1, done, c =>
    match c.peek? with
    | none => some (done, c)
    | some x =>
      if isSpaceOrBreak x then some (done, c)
      else if flow && x == ':' &&
        (c.skip 1).startsWith (fun y => isFlowIndicator y || y == '?') then none
      else if x == ':' && c.blankAhead 1 then some (done, c)
      else if flow && isFlowIndicator x then some (done, c)
      else plainWord flow fuel (x :: done) (c.skip 1)

def plainFrom (flow : Bool) (indent : Nat) :
    Nat → List Char → Gap → Cursor → Option (List Char × Bool × Cursor)
  | 0, done, gap, c => some (done.reverse, gap.broken, c)
  | fuel + 1, done, gap, c =>
    if c.atDocumentMark || c.isAt '#' then some (done.reverse, gap.broken, c)
    else
      match plainWord flow c.bound [] c with
      | none => none
      | some (word, c) =>
        if word.isEmpty then some (done.reverse, gap.broken, c)
        else
          let done := word ++ gap.text.reverse ++ done
          if !c.startsWith isSpaceOrBreak then some (done.reverse, false, c)
          else
            match Gap.read indent c.bound {} c with
            | none => none
            | some (gap, c) =>
              if !flow && c.column < indent then some (done.reverse, gap.broken, c)
              else plainFrom flow indent fuel done gap c

def readPlain (flow : Bool) (indent : Nat) (c : Cursor) : Option (List Char × Bool × Cursor) :=
  plainFrom flow indent (c.bound + 1) [] {} c

end MigrationPlan.Yaml
