import MigrationPlan.Yaml.Node
import MigrationPlan.Yaml.Scan

/- Tokens to the nodes of the one document that a text holds. -/
namespace MigrationPlan.Yaml

namespace Composition

structure State where
  tokens : List Token
  handles : List (String × Tag)
  /-- The names of the anchors so far, each once, with the number that it had last. -/
  names : List (String × Nat) := []
  /-- The numbers of the anchored nodes in the order in which these begin, the last first. -/
  numbers : List Nat := []
  anchored : List (Nat × Node) := []

abbrev Reading := StateT State Option

def peek : Reading Token := fun s => some (s.tokens.headD .streamEnd, s)

def advance : Reading Unit := fun s => some ((), { s with tokens := s.tokens.tail })

def fail {α : Type} : Reading α := fun _ => none

def expect (t : Token) : Reading Unit := do
  if (← peek) == t then advance else fail

def rename (name : String) (number : Nat) (names : List (String × Nat)) : List (String × Nat) :=
  (name, number) :: names.filter fun n => n.1 != name

/-- Begins an anchored node and gives its place. Its number is that of the names in use, so that
    after a name has been used again two nodes may share a number. -/
def beginAnchored (name : String) : Reading Nat := fun s =>
  let number := s.names.length
  some (s.numbers.length,
    { s with names := rename name number s.names, numbers := number :: s.numbers })

def endAnchored (place : Option Nat) (node : Node) : Reading Node := fun s =>
  match place with
  | none => some (node, s)
  | some n => some (node, { s with anchored := (n, node) :: s.anchored })

def State.anchoredNodes (s : State) : List (Nat × Node) :=
  (s.numbers.zip (List.range s.numbers.length).reverse).filterMap fun (number, place) =>
    (s.anchored.lookup place).map fun node => (number, node)

def aliasOf (name : String) : Reading Node :=
  fun s => (s.names.lookup name).map fun n => (.alias n, s)

def fullTag (handle : String) (suffix : Tag) : Reading Tag := fun s =>
  if handle.isEmpty then some (suffix, s)
  else (s.handles.lookup handle).map fun expansion => (expansion ++ suffix, s)

structure Properties where
  anchor : Option Nat := none
  tag : Option Tag := none

def readProperties : Reading Properties := do
  match ← peek with
  | .anchor name =>
    advance
    let anchor ← beginAnchored name
    match ← peek with
    | .tag handle suffix =>
      advance; return { anchor := some anchor, tag := some (← fullTag handle suffix) }
    | _ => return { anchor := some anchor }
  | .tag handle suffix =>
    advance
    let tag ← fullTag handle suffix
    match ← peek with
    | .anchor name => advance; return { anchor := some (← beginAnchored name), tag := some tag }
    | _ => return { tag := some tag }
  | _ => return {}

mutual

/-- A node. Outside flow brackets it may be a block, and in a mapping a sequence that is not
    indented. -/
def node (block indentless : Bool) : Nat → Reading Node
  | 0 => fail
  | fuel + 1 => do
    match ← peek with
    | .alias name => advance; aliasOf name
    | _ =>
      let p ← readProperties
      let token ← peek
      if indentless && token == .blockEntry then
        endAnchored p.anchor (.sequence p.tag (← indentlessItems fuel))
      else
        match token with
        | .scalar style text => advance; endAnchored p.anchor (.scalar p.tag style text)
        | .flowSequenceStart =>
          advance; endAnchored p.anchor (.sequence p.tag (← flowItems true fuel))
        | .flowMappingStart =>
          advance; endAnchored p.anchor (.mapping p.tag (← flowEntries true fuel))
        | .blockSequenceStart =>
          if block then advance; endAnchored p.anchor (.sequence p.tag (← blockItems fuel))
          else bare p
        | .blockMappingStart =>
          if block then advance; endAnchored p.anchor (.mapping p.tag (← blockEntries fuel))
          else bare p
        | _ => bare p

def bare (p : Properties) : Reading Node :=
  if p.anchor.isSome || p.tag.isSome then endAnchored p.anchor (.scalar p.tag .plain "") else fail

def nodeUnless (ends : Token → Bool) (block indentless : Bool) : Nat → Reading Node
  | 0 => fail
  | fuel + 1 => do
    if ends (← peek) then return .empty else node block indentless fuel

def blockItems : Nat → Reading (List Node)
  | 0 => fail
  | fuel + 1 => do
    match ← peek with
    | .blockEntry =>
      advance
      let item ← nodeUnless (fun t => t == .blockEntry || t == .blockEnd) true false fuel
      return item :: (← blockItems fuel)
    | .blockEnd => advance; return []
    | _ => fail

def indentlessItems : Nat → Reading (List Node)
  | 0 => fail
  | fuel + 1 => do
    match ← peek with
    | .blockEntry =>
      advance
      let item ← nodeUnless
        (fun t => t == .blockEntry || t == .key || t == .value || t == .blockEnd) true false fuel
      return item :: (← indentlessItems fuel)
    | _ => return []

def blockEntries : Nat → Reading (List (Node × Node))
  | 0 => fail
  | fuel + 1 => do
    match ← peek with
    | .key =>
      advance
      let ends := fun t => t == Token.key || t == .value || t == .blockEnd
      let key ← nodeUnless ends true true fuel
      let value ←
        if (← peek) == .value then advance; nodeUnless ends true true fuel else pure .empty
      return (key, value) :: (← blockEntries fuel)
    | .blockEnd => advance; return []
    | _ => fail

def flowComma (first : Bool) : Reading Unit :=
  if first then pure () else expect .flowEntry

def flowItems (first : Bool) : Nat → Reading (List Node)
  | 0 => fail
  | fuel + 1 => do
    if (← peek) == .flowSequenceEnd then advance; return []
    else
      flowComma first
      match ← peek with
      | .flowSequenceEnd => advance; return []
      | .key =>
        advance
        let entry ← flowPair fuel
        return .mapping none [entry] :: (← flowItems false fuel)
      | _ =>
        let item ← node false false fuel
        return item :: (← flowItems false fuel)

def flowPair : Nat → Reading (Node × Node)
  | 0 => fail
  | fuel + 1 => do
    let t ← peek
    let key ←
      if t == .value || t == .flowEntry || t == .flowSequenceEnd then advance; pure .empty
      else node false false fuel
    let value ←
      if (← peek) == .value then
        advance
        nodeUnless (fun t => t == .flowEntry || t == .flowSequenceEnd) false false fuel
      else pure .empty
    return (key, value)

def flowEntries (first : Bool) : Nat → Reading (List (Node × Node))
  | 0 => fail
  | fuel + 1 => do
    if (← peek) == .flowMappingEnd then advance; return []
    else
      flowComma first
      match ← peek with
      | .flowMappingEnd => advance; return []
      | .key =>
        advance
        let ends := fun t => t == Token.flowEntry || t == .flowMappingEnd
        let key ← nodeUnless (fun t => ends t || t == .value) false false fuel
        let value ←
          if (← peek) == .value then advance; nodeUnless ends false false fuel else pure .empty
        return (key, value) :: (← flowEntries false fuel)
      | _ =>
        let key ← node false false fuel
        return (key, .empty) :: (← flowEntries false fuel)

end

def directives (version : Bool) (handles : List (String × Tag)) :
    List Token → Option (List (String × Tag) × List Token)
  | .version major minor :: rest =>
    if version || major != 1 || (minor != 1 && minor != 2) then none
    else directives true handles rest
  | .tagHandle handle expansion :: rest =>
    if (handles.lookup handle).isSome then none
    else directives version ((handle, expansion) :: handles) rest
  | rest => some (handles, rest)

def standardHandles : List (String × Tag) := [("!", tagOf "!"), ("!!", tagOf "tag:yaml.org,2002:")]

def isDirective : Token → Bool
  | .version _ _ | .tagHandle _ _ => true
  | _ => false

def endsDocument (t : Token) : Bool :=
  isDirective t || t == .documentStart || t == .documentEnd || t == .streamEnd

def firstRoot (fuel : Nat) (tokens : List Token) : Option (Node × State) :=
  match tokens with
  | .streamEnd :: _ | [] => none
  | t :: rest =>
    if isDirective t || t == .documentStart then do
      let (handles, rest) ← directives false [] (t :: rest)
      match rest with
      | .documentStart :: rest =>
        (nodeUnless endsDocument true false fuel).run
          { tokens := rest, handles := handles ++ standardHandles }
      | _ => none
    else (node true false fuel).run { tokens, handles := standardHandles }

def document? (tokens : List Token) : Option Graph := do
  let (root, s) ← firstRoot (3 * tokens.length + 3) tokens
  match s.tokens.dropWhile (· == .documentEnd) with
  | [.streamEnd] => some { root, anchored := s.anchoredNodes }
  | _ => none

end Composition

def read? (s : String) : Option Graph := (tokens? s.toList).bind Composition.document?

end MigrationPlan.Yaml
