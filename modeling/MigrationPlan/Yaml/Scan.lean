import MigrationPlan.Yaml.BlockText
import MigrationPlan.Yaml.FlowText
import MigrationPlan.Yaml.Marks

/- YAML text to tokens. Indentation opens and closes blocks. What may turn out to be a key is
   remembered until the colon behind it is met, and the marks of a key and of a block then go in
   front of it. -/
namespace MigrationPlan.Yaml

structure PossibleKey where
  position : Nat
  required : Bool
  index : Nat
  line : Nat
  column : Nat

structure Scan where
  cursor : Cursor
  tokens : Array Token := #[]
  /-- The columns of the blocks around this place, innermost first; -1 stands for no block. -/
  indents : List Int := []
  indent : Int := -1
  flow : Nat := 0
  keyAllowed : Bool := true
  key : Option PossibleKey := none
  outerKeys : List (Option PossibleKey) := []
  done : Bool := false

namespace Scan

def emit (s : Scan) (t : Token) : Scan := { s with tokens := s.tokens.push t }

def emitAt (s : Scan) (cursor : Cursor) (t : Token) : Scan :=
  { s with cursor, tokens := s.tokens.push t }

def emitBefore (s : Scan) (position : Option Nat) (t : Token) : Scan :=
  match position with
  | none => s.emit t
  | some i => { s with tokens := s.tokens.insertIdxIfInBounds i t }

def closeBlocks (column : Int) (s : Scan) : Scan :=
  if s.flow > 0 then s
  else
    let closed := (s.indent :: s.indents).takeWhile (· > column)
    let left := (s.indent :: s.indents).drop closed.length
    { s with
      tokens := s.tokens ++ (closed.map fun _ => Token.blockEnd).toArray
      indent := left.headD (-1)
      indents := left.tail }

def openBlock (column : Nat) (position : Option Nat) (t : Token) (s : Scan) : Scan :=
  if s.flow > 0 then s
  else if s.indent < column then
    { s.emitBefore position t with indent := column, indents := s.indent :: s.indents }
  else s

def dropKey (s : Scan) : Option Scan :=
  match s.key with
  | some key => if key.required then none else some { s with key := none }
  | none => some s

def saveKey (s : Scan) : Option Scan :=
  if !s.keyAllowed then some s
  else
    s.dropKey.map fun s =>
      { s with
        key := some
          { position := s.tokens.size
            required := s.flow == 0 && s.indent == s.cursor.column
            index := s.cursor.index
            line := s.cursor.line
            column := s.cursor.column } }

/-- A key stands on one line and takes at most 1024 octets. -/
def isStale (s : Scan) (key : PossibleKey) : Bool :=
  key.line < s.cursor.line || key.index + 1024 < s.cursor.index

def freshKey (s : Scan) : Option PossibleKey → Option (Option PossibleKey)
  | none => some none
  | some key => if !s.isStale key then some (some key) else if key.required then none else some none

def dropStaleKeys (s : Scan) : Option Scan := do
  let key ← s.freshKey s.key
  let outerKeys ← s.outerKeys.mapM s.freshKey
  return { s with key, outerKeys }

/-- Passes over white space, comments and line breaks. Tabs count as white space inside flow
    brackets and where no key may start. A byte order mark may begin a line; it belongs to no token
    but takes up a column. -/
def skipBlank : Nat → Scan → Scan
  | 0, s => s
  | fuel + 1, s =>
    let c := if s.cursor.column == 0 && s.cursor.isAt '\uFEFF' then s.cursor.skip 1 else s.cursor
    let tabs := s.flow > 0 || !s.keyAllowed
    let c := (c.skipWhile fun x => x == ' ' || (tabs && x == '\t')).skipComment
    if c.startsWith isBreak then
      skipBlank fuel { s with cursor := c.skipBreak, keyAllowed := s.keyAllowed || s.flow == 0 }
    else { s with cursor := c }

def endOfStream (s : Scan) : Option Scan :=
  (s.closeBlocks (-1)).dropKey.map fun s => { s.emit .streamEnd with done := true }

def directive (s : Scan) : Option Scan := do
  let s ← (s.closeBlocks (-1)).dropKey
  let (token, c) ← readDirective s.cursor
  return { s.emitAt c token with keyAllowed := false }

def documentMark (s : Scan) : Option Scan :=
  (s.closeBlocks (-1)).dropKey.map fun s =>
    let token := if s.cursor.isAt '-' then Token.documentStart else .documentEnd
    { s.emitAt (s.cursor.skip 3) token with keyAllowed := false }

def openFlow (t : Token) (s : Scan) : Option Scan :=
  s.saveKey.map fun s =>
    { s.emitAt (s.cursor.skip 1) t with
      keyAllowed := true, flow := s.flow + 1, key := none, outerKeys := s.key :: s.outerKeys }

def closeFlow (t : Token) (s : Scan) : Option Scan :=
  s.dropKey.map fun s =>
    let s := { s.emitAt (s.cursor.skip 1) t with keyAllowed := false }
    match s.outerKeys with
    | key :: outerKeys => { s with flow := s.flow - 1, key, outerKeys }
    | [] => s

def flowEntry (s : Scan) : Option Scan :=
  s.dropKey.map fun s => { s.emitAt (s.cursor.skip 1) .flowEntry with keyAllowed := true }

def blockEntry (s : Scan) : Option Scan := do
  let s ←
    if s.flow > 0 then some s
    else if s.keyAllowed then some (s.openBlock s.cursor.column none .blockSequenceStart)
    else none
  let s ← s.dropKey
  return { s.emitAt (s.cursor.skip 1) .blockEntry with keyAllowed := true }

def explicitKey (s : Scan) : Option Scan := do
  let s ←
    if s.flow > 0 then some s
    else if s.keyAllowed then some (s.openBlock s.cursor.column none .blockMappingStart)
    else none
  let s ← s.dropKey
  return { s.emitAt (s.cursor.skip 1) .key with keyAllowed := s.flow == 0 }

def value (s : Scan) : Option Scan :=
  match s.key with
  | some key =>
    let s :=
      (s.emitBefore (some key.position) .key).openBlock key.column (some key.position)
        .blockMappingStart
    some { s.emitAt (s.cursor.skip 1) .value with key := none, keyAllowed := false }
  | none =>
    if s.flow == 0 && !s.keyAllowed then none
    else
      let s := s.openBlock s.cursor.column none .blockMappingStart
      some { s.emitAt (s.cursor.skip 1) .value with keyAllowed := s.flow == 0 }

def named (token : String → Token) (s : Scan) : Option Scan := do
  let s ← s.saveKey
  let (name, c) ← readName s.cursor
  return { s.emitAt c (token name) with keyAllowed := false }

def tag (s : Scan) : Option Scan := do
  let s ← s.saveKey
  let (token, c) ← readTag (s.flow > 0) s.cursor
  return { s.emitAt c token with keyAllowed := false }

def block (style : Style) (s : Scan) : Option Scan := do
  let s ← s.dropKey
  let (text, c) ← readBlock (style == .literal) s.indent (s.cursor.skip 1)
  return { s.emitAt c (.scalar style (String.ofList text)) with keyAllowed := true }

def quoted (style : Style) (s : Scan) : Option Scan := do
  let s ← s.saveKey
  let (text, c) ← readQuoted (style == .singleQuoted) s.cursor
  return { s.emitAt c (.scalar style (String.ofList text)) with keyAllowed := false }

def plain (s : Scan) : Option Scan := do
  let s ← s.saveKey
  let (text, broken, c) ← readPlain (s.flow > 0) (s.indent + 1).toNat s.cursor
  return { s.emitAt c (.scalar .plain (String.ofList text)) with keyAllowed := broken }

def isIndicator (c : Char) : Bool := "-?:,[]\x7b\x7d#&*!|>'\"%@\x60".toList.contains c

def startsPlain (s : Scan) (x : Char) : Bool :=
  let c := s.cursor
  !(isSpace x || isIndicator x) || (x == '-' && !(c.skip 1).startsWith isSpace)
    || (s.flow == 0 && (x == '?' || x == ':') && !c.blankAhead 1)

def next (s : Scan) : Option Scan := do
  let s ← (skipBlank (s.cursor.bound + 1) s).dropStaleKeys
  let s := s.closeBlocks s.cursor.column
  let c := s.cursor
  match c.peek? with
  | none => s.endOfStream
  | some x =>
    if c.column == 0 && x == '%' then s.directive
    else if c.atDocumentMark then s.documentMark
    else
      match x with
      | '[' => s.openFlow .flowSequenceStart
      | '{' => s.openFlow .flowMappingStart
      | ']' => s.closeFlow .flowSequenceEnd
      | '}' => s.closeFlow .flowMappingEnd
      | ',' => s.flowEntry
      | '*' => s.named .alias
      | '&' => s.named .anchor
      | '!' => s.tag
      | '\'' => s.quoted .singleQuoted
      | '"' => s.quoted .doubleQuoted
      | _ =>
        if x == '-' && c.blankAhead 1 then s.blockEntry
        else if x == '?' && (s.flow > 0 || c.blankAhead 1) then s.explicitKey
        else if x == ':' && (s.flow > 0 || c.blankAhead 1) then s.value
        else if x == '|' && s.flow == 0 then s.block .literal
        else if x == '>' && s.flow == 0 then s.block .folded
        else if s.startsPlain x then s.plain
        else none

/-- Each round takes one character or more and the last one ends the stream. -/
def run : Nat → Scan → Option Scan
  | 0, s => if s.done then some s else none
  | fuel + 1, s => if s.done then some s else s.next.bind (run fuel)

end Scan

def tokens? (s : List Char) : Option (List Token) :=
  if s.all isAllowed then
    (Scan.run (s.length + 2) { cursor := { rest := s } }).map (·.tokens.toList) else none

end MigrationPlan.Yaml
