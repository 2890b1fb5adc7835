import MigrationPlan.Tree

/- Data trees to JSON text, two spaces a level and one member or item a line. -/
namespace MigrationPlan.Json

def hexDigit (n : Nat) : Char := if n < 10 then Char.ofNat (48 + n) else Char.ofNat (87 + n)

def escapeChar (c : Char) : List Char :=
  match c with
  | '"' => ['\\', '"']
  | '\\' => ['\\', '\\']
  | '\n' => ['\\', 'n']
  | '\r' => ['\\', 'r']
  | '\t' => ['\\', 't']
  | '\x08' => ['\\', 'b']
  | '\x0c' => ['\\', 'f']
  | c =>
    if c.toNat < 0x20 then ['\\', 'u', '0', '0', hexDigit (c.toNat / 16), hexDigit (c.toNat % 16)]
    else [c]

def quoted (s : String) : String := "\"" ++ String.ofList (s.toList.flatMap escapeChar) ++ "\""

def newline (depth : Nat) : String := "\n" ++ String.ofList (List.replicate (2 * depth) ' ')

mutual

def render (depth : Nat) : Tree → String
  | .null | .other => "null"
  | .flag b => if b then "true" else "false"
  | .integer n => toString n
  | .text s => quoted s
  | .list [] => "[]"
  | .list (item :: items) =>
    "[" ++ newline (depth + 1) ++ render (depth + 1) item ++ renderItems (depth + 1) items ++
      newline depth ++ "]"
  | .record [] => "\x7b\x7d"
  | .record ((key, value) :: members) =>
    "\x7b" ++ newline (depth + 1) ++ quoted key ++ ": " ++ render (depth + 1) value
      ++ renderMembers (depth + 1) members ++ newline depth ++ "\x7d"

def renderItems (depth : Nat) : List Tree → String
  | [] => ""
  | item :: items => "," ++ newline depth ++ render depth item ++ renderItems depth items

def renderMembers (depth : Nat) : List (String × Tree) → String
  | [] => ""
  | (key, value) :: members =>
    "," ++ newline depth ++ quoted key ++ ": " ++ render depth value ++ renderMembers depth members

end

def pretty (t : Tree) : String := render 0 t

end MigrationPlan.Json
