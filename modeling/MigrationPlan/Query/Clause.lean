import MigrationPlan.Text.Blank
import MigrationPlan.Text.Fold

/- Clauses of a query text. A keyword counts only at parenthesis depth zero, outside string literals
   and after a boundary, so sub-selects and quoted values never split a clause. Inside a literal a
   backslash takes the next character with it. The depth is counted without bound: a counter of 32
   bits would run over in a text with 2^31 parentheses open at once. -/
namespace MigrationPlan.Query
open Text

inductive ParseError where
  | empty
  | missingSelect
  | missingFrom
  | noEntries
  | emptyEntry (position : Nat)
  | invalidObject (text : String)
  | invalidNumber (clause value : String)
  | emptyClause (clause : String)
  | repeatedClause (clause : String)
  | clauseOutOfOrder (clause : String)
  | unterminatedLiteral
  | unbalancedParentheses
  deriving DecidableEq, Repr

def ParseError.message : ParseError → String
  | empty => "query text is empty"
  | missingSelect => "query must start with SELECT"
  | missingFrom => "query has no FROM clause"
  | noEntries => "query selects no fields"
  | emptyEntry position => "empty field in select list at position " ++ toString position
  | invalidObject text => "invalid object name '" ++ text ++ "'"
  | invalidNumber clause value => "invalid " ++ clause ++ " value '" ++ value ++ "'"
  | emptyClause clause => clause ++ " clause has no content"
  | repeatedClause clause => clause ++ " clause appears more than once"
  | clauseOutOfOrder clause => clause ++ " clause is out of order"
  | unterminatedLiteral => "unterminated string literal"
  | unbalancedParentheses => "unbalanced parentheses"

inductive Clause where
  | selection
  | object
  | filter
  | ordering
  | limit
  | offset
  deriving DecidableEq, Repr

namespace Clause

def rank : Clause → Nat
  | selection => 0
  | object => 1
  | filter => 2
  | ordering => 3
  | limit => 4
  | offset => 5

def label : Clause → String
  | selection => "SELECT"
  | object => "FROM"
  | filter => "WHERE"
  | ordering => "ORDER BY"
  | limit => "LIMIT"
  | offset => "OFFSET"

def ofWord? (word : List Char) : Option Clause :=
  [selection, object, filter, limit, offset].find? fun c =>
    c.label.toList.map Char.toLower == word.map Char.toLower

/-- The keyword a text starts with and its length. `ORDER` is a keyword only with the word `BY`
    behind white space. -/
def keyword? (s : List Char) : Option (Clause × Nat) :=
  let word := s.takeWhile isWordChar
  if word.map Char.toLower == "order".toList then
    let gap := (s.drop word.length).takeWhile isBlank
    let second := (s.drop (word.length + gap.length)).takeWhile isWordChar
    if !gap.isEmpty && second.map Char.toLower == "by".toList then
      some (ordering, word.length + gap.length + second.length)
    else none
  else (ofWord? word).map fun c => (c, word.length)

end Clause

inductive Place where
  | outside (depth : Nat)
  | literal (depth : Nat)
  | escaped (depth : Nat)
  deriving DecidableEq, Repr

namespace Place

/-- The place after one more character; none when a parenthesis closes that none opened. -/
def next? : Place → Char → Option Place
  | outside depth, c =>
    if c = '\'' then some (literal depth)
    else if c = '(' then some (outside (depth + 1))
    else if c = ')' then
      match depth with
      | 0 => none
      | depth + 1 => some (outside depth)
    else some (outside depth)
  | literal depth, c =>
    if c = '\\' then some (escaped depth)
    else if c = '\'' then some (outside depth)
    else some (literal depth)
  | escaped depth, _ => some (literal depth)

end Place

/-- A clause as it stands in the text: its keyword, of the given length, and all up to the next
    one. -/
structure Piece where
  clause : Clause
  keywordLength : Nat
  text : List Char
  deriving DecidableEq, Repr

namespace Piece

def keyword (p : Piece) : List Char := p.text.take p.keywordLength

def body (p : Piece) : List Char := trim (p.text.drop p.keywordLength)

end Piece

def isBoundary (c : Char) : Bool := isBlank c || c == ',' || c == ')'

def topKeyword? (boundary : Bool) (place : Place) (s : List Char) : Option (Clause × Nat) :=
  if boundary && place = .outside 0 then Clause.keyword? s else none

/-- Cuts a text before each top-level keyword: what stands before the first, and the pieces. No
    keyword holds another, so the search goes on inside a keyword as anywhere else. -/
def cut (boundary : Bool) (place : Place) : List Char → Except ParseError (List Char × List Piece)
  | [] =>
    match place with
    | .outside 0 => .ok ([], [])
    | .outside _ => .error .unbalancedParentheses
    | _ => .error .unterminatedLiteral
  | c :: rest =>
    match place.next? c with
    | none => .error .unbalancedParentheses
    | some place' =>
      match cut (isBoundary c) place' rest with
      | .error e => .error e
      | .ok (text, pieces) =>
        match topKeyword? boundary place (c :: rest) with
        | none => .ok (c :: text, pieces)
        | some (clause, length) => .ok ([], ⟨clause, length, c :: text⟩ :: pieces)

def pieces (s : List Char) : Except ParseError (List Char × List Piece) := cut true (.outside 0) s

end MigrationPlan.Query
