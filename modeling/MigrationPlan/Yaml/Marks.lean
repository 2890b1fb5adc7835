import MigrationPlan.Text.Numeral
import MigrationPlan.Yaml.Cursor
import MigrationPlan.Yaml.Token

/- Anchors, aliases, tags and directives. -/
namespace MigrationPlan.Yaml
open Text

def readName (c : Cursor) : Option (String × Cursor) :=
  let c := c.skip 1
  let name := c.rest.takeWhile isNameChar
  let c := c.skip name.length
  let ends := c.blankAhead 0 || c.startsWith fun x => "?:,]\x7d%@\x60".toList.contains x
  if name.isEmpty || !ends then none else some (String.ofList name, c)

def readHandle (directive : Bool) (c : Cursor) : Option (List Char × Cursor) :=
  if !c.isAt '!' then none
  else
    let name := (c.skip 1).rest.takeWhile isNameChar
    let after := c.skip (1 + name.length)
    let handle := '!' :: name
    if after.isAt '!' then some (handle ++ ['!'], after.skip 1)
    else if directive && !name.isEmpty then none
    else some (handle, after)

def isUriChar (verbatim : Bool) (c : Char) : Bool :=
  isNameChar c || ";/?:@&=+$.%!~*'()".toList.contains c || (verbatim && ",[]".toList.contains c)

def formLength? (first : UInt8) : Option Nat :=
  if first < 0x80 then some 1
  else if first < 0xC0 then none
  else if first < 0xE0 then some 2
  else if first < 0xF0 then some 3
  else if first < 0xF8 then some 4
  else none

def escapedOctet? : List Char → Option (UInt8 × List Char)
  | '%' :: a :: b :: rest => (digits? 16 [a, b]).map fun n => (UInt8.ofNat n, rest)
  | _ => none

def continuation? : Nat → List Char → Option (List UInt8)
  | 0, _ => some []
  | count + 1, s => do
    let (octet, s) ← escapedOctet? s
    if octet &&& 0xC0 == 0x80 then (continuation? count s).map (octet :: ·) else none

/-- The octets of one UTF-8 form, each escaped. Their number and their kinds count, not what they
    encode. -/
def escapedForm? (s : List Char) : Option (List UInt8) := do
  let (first, s) ← escapedOctet? s
  let more ← continuation? ((← formLength? first) - 1) s
  return first :: more

def readUri (verbatim : Bool) : Nat → List UInt8 → Cursor → Option (List UInt8 × Cursor)
  | 0, done, c => some (done.reverse, c)
  | fuel + 1, done, c =>
    match c.peek? with
    | none => some (done.reverse, c)
    | some x =>
      if x == '%' then
        match escapedForm? c.rest with
        | none => none
        | some octets => readUri verbatim fuel (octets.reverse ++ done) (c.skip (3 * octets.length))
      else if isUriChar verbatim x then
        readUri verbatim fuel (UInt8.ofNat x.toNat :: done) (c.skip 1)
      else some (done.reverse, c)

/-- A zero octet ends a tag, wherever it stands. -/
def beforeZero (octets : List UInt8) : Tag := octets.takeWhile (· != 0)

def tagOf (s : String) : Tag := s.toUTF8.toList

def readTag (flow : Bool) (c : Cursor) : Option (Token × Cursor) := do
  let (handle, suffix, c) ←
    if (c.skip 1).isAt '<' then do
      let (suffix, c) ← readUri true c.bound [] (c.skip 2)
      if suffix.isEmpty || !c.isAt '>' then none else some ("", beforeZero suffix, c.skip 1)
    else do
      let (handle, after) ← readHandle false c
      let (suffix, c) ← readUri false c.bound [] after
      if handle.length > 1 && handle.getLast? == some '!' then
        if suffix.isEmpty then none else some (String.ofList handle, beforeZero suffix, c)
      else
        let suffix := beforeZero (tagOf (String.ofList (handle.drop 1)) ++ suffix)
        if suffix.isEmpty then some ("", tagOf "!", c) else some ("!", suffix, c)
  if c.blankAhead 0 || (flow && c.isAt ',') then some (.tag handle suffix, c) else none

def readVersionPart (c : Cursor) : Option (Nat × Cursor) :=
  let digits := c.rest.takeWhile Char.isDigit
  if digits.length > 9 then none else (digits? 10 digits).map fun n => (n, c.skip digits.length)

def readVersion (c : Cursor) : Option (Token × Cursor) := do
  let (major, c) ← readVersionPart (c.skipWhile isSpace)
  if !c.isAt '.' then none
  else do
    let (minor, c) ← readVersionPart (c.skip 1)
    return (.version major minor, c)

def readTagDirective (c : Cursor) : Option (Token × Cursor) := do
  let (handle, c) ← readHandle true (c.skipWhile isSpace)
  if !c.startsWith isSpace then none
  else do
    let c := c.skipWhile isSpace
    let (expansion, c) ← readUri true c.bound [] c
    if expansion.isEmpty || !c.blankAhead 0 then none
    else some (.tagHandle (String.ofList handle) (beforeZero expansion), c)

def readDirective (c : Cursor) : Option (Token × Cursor) := do
  let c := c.skip 1
  let name := c.rest.takeWhile isNameChar
  let c := c.skip name.length
  if !c.blankAhead 0 then none
  else do
    let (token, c) ←
      if name == "YAML".toList then readVersion c
      else if name == "TAG".toList then readTagDirective c
      else none
    let c := (c.skipWhile isSpace).skipComment
    if c.atLineEnd then some (token, c.skipBreak) else none

end MigrationPlan.Yaml
