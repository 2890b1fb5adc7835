import MigrationPlan.Text.Numeral

/- What a plain scalar is: nothing, a truth value, a number, or a text. -/
namespace MigrationPlan.Yaml
open Text

inductive Scalar where
  | null
  | flag (value : Bool)
  | integer (value : Int)
  | number
  | text
  deriving DecidableEq, Repr

def isNull (s : String) : Bool := ["null", "Null", "NULL", "~"].contains s

def readFlag? (s : String) : Option Bool :=
  if ["true", "True", "TRUE"].contains s then some true
  else if ["false", "False", "FALSE"].contains s then some false
  else none

def isSign (c : Char) : Bool := c == '+' || c == '-'

def withoutSign (s : List Char) : List Char :=
  match s with
  | '+' :: rest | '-' :: rest => rest
  | _ => s

def withoutPlus (s : List Char) : List Char :=
  match s with
  | '+' :: rest => rest
  | _ => s

def hasLeadingZero (s : List Char) : Bool :=
  match withoutSign s with
  | '0' :: c :: rest => (c :: rest).all Char.isDigit
  | _ => false

def readBased? : List Char → Option Nat
  | '0' :: 'x' :: rest => digits? 16 rest
  | '0' :: 'o' :: rest => digits? 8 rest
  | '0' :: 'b' :: rest => digits? 2 rest
  | _ => none

def readInteger? (s : List Char) : Option Int :=
  match s with
  | '-' :: rest =>
    match readBased? rest with
    | some n => some (-(n : Int))
    | none => if hasLeadingZero s then none else (digits? 10 rest).map fun n => -(n : Int)
  | _ =>
    let rest := withoutPlus s
    match readBased? rest with
    | some n => some n
    | none => if hasLeadingZero s then none else (digits? 10 rest).map fun n => (n : Int)

structure Decimal where
  digits : Nat
  exponent : Int

def readDecimal? (s : List Char) : Option Decimal :=
  let body := withoutSign s
  let whole := body.takeWhile Char.isDigit
  let rest := body.drop whole.length
  let fraction := match rest with
    | '.' :: r => r.takeWhile Char.isDigit
    | _ => []
  let rest := match rest with
    | '.' :: r => r.drop fraction.length
    | r => r
  if whole.isEmpty && fraction.isEmpty then none
  else do
    let mantissa ← digits? 10 (whole ++ fraction)
    let exponent ←
      match rest with
      | [] => some 0
      | e :: r =>
        if e == 'e' || e == 'E' then
          match r with
          | '-' :: r => (digits? 10 r).map fun n => -(n : Int)
          | r => (digits? 10 (withoutPlus r)).map fun n => (n : Int)
        else none
    return { digits := mantissa, exponent := exponent - fraction.length }

/-- Whether the nearest double is finite: the number lies below `2 ^ 1024 - 2 ^ 970`, from where on
    numbers round to infinity. `size` counts the digits before the point; it decides alone where it
    is large or negative. -/
def Decimal.isFinite (d : Decimal) : Bool :=
  if d.digits == 0 then true
  else
    let size : Int := (Nat.toDigits 10 d.digits).length + d.exponent
    if size > 400 then false
    else if size < 0 then true
    else
      d.digits * Nat.pow 10 d.exponent.toNat
        < (Nat.pow 2 1024 - Nat.pow 2 970) * Nat.pow 10 (-d.exponent).toNat

def isSpecialNumber (s : String) : Bool :=
  [".inf", ".Inf", ".INF", "+.inf", "+.Inf", "+.INF", "-.inf", "-.Inf", "-.INF", ".nan", ".NaN",
    ".NAN"].contains s

def isSignTwice (s : List Char) : Bool :=
  match s with
  | '+' :: c :: _ => isSign c
  | _ => false

def isDecimal (s : List Char) : Bool :=
  !isSignTwice s && (readDecimal? s).any Decimal.isFinite

def fitsWord64 (n : Int) : Bool := Int64.minValue.toInt ≤ n && n ≤ Int64.maxValue.toInt

/-- The largest integers that are told from text are those of 128 bits. -/
def fitsWord128 (n : Int) : Bool := -(Nat.pow 2 127 : Int) ≤ n && n < (Nat.pow 2 128 : Int)

def readNumber? (s : String) : Option Scalar :=
  match (readInteger? s.toList).filter fitsWord128 with
  | some n => some (if fitsWord64 n then .integer n else .number)
  | none =>
    if isSpecialNumber s || (!hasLeadingZero s.toList && isDecimal s.toList) then some .number
    else none

def resolve (s : String) : Scalar :=
  if s.isEmpty || isNull s then .null
  else
    match readFlag? s with
    | some b => .flag b
    | none => (readNumber? s).getD .text

end MigrationPlan.Yaml
