import MigrationPlan.Query.Basic
import MigrationPlan.Query.Clause

/- Reading a query text: the pieces in their order, then each body by the rule of its clause. -/
namespace MigrationPlan.Query
open Text

/-- The parts of a select list between its commas. Every quote opens or closes a literal here, and a
    comma counts outside literals at depth zero; the depth may fall below zero, and has no bound
    there either. -/
def splitEntries (quoted : Bool) (depth : Int) : List Char → List (List Char)
  | [] => [[]]
  | c :: rest =>
    if c = '\'' then (splitEntries (!quoted) depth rest).modifyHead (c :: ·)
    else if quoted then (splitEntries quoted depth rest).modifyHead (c :: ·)
    else if c = '(' then (splitEntries quoted (depth + 1) rest).modifyHead (c :: ·)
    else if c = ')' then (splitEntries quoted (depth - 1) rest).modifyHead (c :: ·)
    else if c = ',' ∧ depth = 0 then [] :: splitEntries quoted depth rest
    else (splitEntries quoted depth rest).modifyHead (c :: ·)

def readEntries (position : Nat) : List (List Char) → Except ParseError (List Entry)
  | [] => .ok []
  | part :: rest =>
    if (trim part).isEmpty then .error (.emptyEntry position)
    else (readEntries (position + 1) rest).map (Entry.read part :: ·)

def readSelection (body : List Char) : Except ParseError (List Entry) :=
  if body.isEmpty then .error .noEntries else readEntries 0 (splitEntries false 0 body)

def isObjectName (s : List Char) : Bool := !s.isEmpty && s.all isWordChar

def readObject (body : List Char) : Except ParseError String :=
  if isObjectName body then .ok (String.ofList body)
  else .error (.invalidObject (String.ofList body))

def readText (clause : Clause) (body : List Char) : Except ParseError String :=
  if body.isEmpty then .error (.emptyClause clause.label) else .ok (String.ofList body)

def readNumber (clause : Clause) (body : List Char) : Except ParseError UInt64 :=
  match readWord64? body with
  | some n => .ok (UInt64.ofNat n)
  | none => .error (.invalidNumber clause.label (String.ofList body))

def readClause (q : Query) (p : Piece) : Except ParseError Query :=
  match p.clause with
  | .selection => (readSelection p.body).map fun entries => { q with entries }
  | .object => (readObject p.body).map fun object => { q with object }
  | .filter => (readText .filter p.body).map fun text => { q with filter := some text }
  | .ordering => (readText .ordering p.body).map fun text => { q with ordering := some text }
  | .limit => (readNumber .limit p.body).map fun n => { q with limit := some n }
  | .offset => (readNumber .offset p.body).map fun n => { q with offset := some n }

def readClauses (q : Query) : List Piece → Except ParseError Query
  | [] => .ok q
  | p :: rest => (readClause q p).bind fun q => readClauses q rest

/-- Each clause stands once and after those of lower rank; `seen` are the clauses so far, last
    first. -/
def checkOrder (seen : List Clause) : List Clause → Except ParseError Unit
  | [] => .ok ()
  | c :: rest =>
    if seen.contains c then .error (.repeatedClause c.label)
    else if seen.head?.any fun last => c.rank < last.rank then .error (.clauseOutOfOrder c.label)
    else checkOrder (c :: seen) rest

def startsWithSelect (lead : List Char) (ps : List Piece) : Bool :=
  lead.isEmpty && ps.head?.any (·.clause = .selection)

def parseTrimmed (s : List Char) : Except ParseError Query :=
  if s.isEmpty then .error .empty
  else
    (pieces s).bind fun (lead, ps) =>
      if !startsWithSelect lead ps then .error .missingSelect
      else
        (checkOrder [] (ps.map Piece.clause)).bind fun _ =>
          if ps.all (·.clause ≠ .object) then .error .missingFrom else readClauses {} ps

def parse (s : String) : Except ParseError Query := parseTrimmed (trim s.toList)

end MigrationPlan.Query
