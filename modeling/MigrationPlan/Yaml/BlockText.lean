import MigrationPlan.Yaml.Cursor

/- Block scalars: literal ones keep their line breaks, folded ones join lines that do not start with
   white space. -/
namespace MigrationPlan.Yaml

inductive Chomping where
  | strip
  | clip
  | keep
  deriving DecidableEq, Repr

structure BlockHeader where
  chomping : Chomping := .clip
  increment : Nat := 0

def chompingOf? : Char → Option Chomping
  | '+' => some .keep
  | '-' => some .strip
  | _ => none

def readIncrement (h : BlockHeader) (c : Cursor) : Option (BlockHeader × Cursor) :=
  match c.peek? with
  | none => some (h, c)
  | some x =>
    if x == '0' then none
    else if x.isDigit then some ({ h with increment := x.toNat - '0'.toNat }, c.skip 1)
    else some (h, c)

def readChomping (h : BlockHeader) (c : Cursor) : BlockHeader × Cursor :=
  match c.peek?.bind chompingOf? with
  | some chomping => ({ h with chomping }, c.skip 1)
  | none => (h, c)

def readBlockHeader (c : Cursor) : Option (BlockHeader × Cursor) := do
  let (h, afterSign) := readChomping {} c
  let (h, afterDigit) ← readIncrement h afterSign
  let (h, c) := if afterSign.index == c.index then readChomping h afterDigit else (h, afterDigit)
  let c := (c.skipWhile isSpace).skipComment
  if c.atLineEnd then some (h, c.skipBreak) else none

/-- Passes over empty lines: the breaks, the greatest column reached. Spaces count as indentation up
    to column `indent`, all of them while it is zero; no tab may stand among them. -/
def emptyLines (indent : Nat) : Nat → List Char → Nat → Cursor → Option (List Char × Nat × Cursor)
  | 0, breaks, widest, c => some (breaks, widest, c)
  | fuel + 1, breaks, widest, c =>
    let spaces := (c.rest.takeWhile (· == ' ')).length
    let c := c.skip (if indent == 0 then spaces else min spaces (indent - c.column))
    let widest := max widest c.column
    if (indent == 0 || c.column < indent) && c.isAt '\t' then none
    else if c.startsWith isBreak then
      emptyLines indent fuel (breaks ++ c.breakText) widest c.skipBreak
    else some (breaks, widest, c)

def blockLines (literal : Bool) (indent : Nat) :
    Nat → List Char → List Char → List Char → Bool → Cursor →
      Option (List Char × List Char × List Char × Cursor)
  | 0, done, lastBreak, breaks, _, c => some (done, lastBreak, breaks, c)
  | fuel + 1, done, lastBreak, breaks, afterBlank, c =>
    if c.column != indent || c.rest.isEmpty then some (done, lastBreak, breaks, c)
    else
      let blank := c.startsWith isSpace
      let joined := !literal && lastBreak == ['\n'] && !afterBlank && !blank
      let done :=
        if joined then if breaks.isEmpty then ' ' :: done else done else lastBreak.reverse ++ done
      let line := c.rest.takeWhile (! isBreak ·)
      let done := line.reverse ++ (breaks.reverse ++ done)
      let c := c.skip line.length
      match emptyLines indent c.bound [] 0 c.skipBreak with
      | none => none
      | some (breaks, _, next) => blockLines literal indent fuel done c.breakText breaks blank next

/-- A block scalar from behind its indicator; `parent` is the column of the block around it, -1 for
    none. -/
def readBlock (literal : Bool) (parent : Int) (c : Cursor) : Option (List Char × Cursor) := do
  let (h, c) ← readBlockHeader c
  let given := if h.increment == 0 then 0 else (max parent 0).toNat + h.increment
  let (breaks, widest, c) ← emptyLines given (c.bound + 1) [] 0 c
  let indent := if given == 0 then max (max widest (parent + 1).toNat) 1 else given
  let (done, lastBreak, breaks, c) ← blockLines literal indent (c.bound + 1) [] [] breaks false c
  let text := done.reverse
  match h.chomping with
  | .strip => some (text, c)
  | .clip => some (text ++ lastBreak, c)
  | .keep => some (text ++ lastBreak ++ breaks, c)

end MigrationPlan.Yaml
