import MigrationPlan.Text.Blank
import MigrationPlan.Text.Numeral

/- Points in time by the calendar and the clock of UTC, and their text:
   `2024-01-02T03:04:05.678Z`. -/
namespace MigrationPlan
open Text

structure Timestamp where
  year : Int
  month : Nat
  day : Nat
  hour : Nat
  minute : Nat
  /-- Sixty in a leap second. -/
  second : Nat
  nanosecond : Nat := 0
  deriving DecidableEq, Repr

namespace Timestamp

def isLeapYear (year : Int) : Bool := year % 4 == 0 && (year % 100 != 0 || year % 400 == 0)

def daysIn (year : Int) (month : Nat) : Nat :=
  if month == 2 then (if isLeapYear year then 29 else 28)
  else if [4, 6, 9, 11].contains month then 30
  else 31

/-- Days since 1970-01-01. The year is taken to begin in March, so that the leap day ends it, and
    400 years have 146097 days. -/
def dayNumber (year : Int) (month day : Nat) : Int :=
  let shifted : Int := if month ≤ 2 then year - 1 else year
  let cycle := shifted / 400
  let yearOfCycle := shifted % 400
  let monthFromMarch : Int := if month ≤ 2 then month + 9 else month - 3
  let dayOfYear := (153 * monthFromMarch + 2) / 5 + day - 1
  cycle * 146097 + yearOfCycle * 365 + yearOfCycle / 4 - yearOfCycle / 100 + dayOfYear - 719468

def dateOf (dayNumber : Int) : Int × Nat × Nat :=
  let fromMarch := dayNumber + 719468
  let cycle := fromMarch / 146097
  let dayOfCycle := fromMarch % 146097
  let yearOfCycle :=
    (dayOfCycle - dayOfCycle / 1460 + dayOfCycle / 36524 - dayOfCycle / 146096) / 365
  let dayOfYear := dayOfCycle - (365 * yearOfCycle + yearOfCycle / 4 - yearOfCycle / 100)
  let monthFromMarch := (5 * dayOfYear + 2) / 153
  let day := dayOfYear - (153 * monthFromMarch + 2) / 5 + 1
  let month := if monthFromMarch < 10 then monthFromMarch + 3 else monthFromMarch - 9
  (yearOfCycle + cycle * 400 + (if month ≤ 2 then 1 else 0), month.toNat, day.toNat)

def minutesBefore (t : Timestamp) (minutes : Int) : Timestamp :=
  let total : Int := dayNumber t.year t.month t.day * 1440 + t.hour * 60 + t.minute - minutes
  let (year, month, day) := dateOf (total / 1440)
  let ofDay := (total % 1440).toNat
  { t with year, month, day, hour := ofDay / 60, minute := ofDay % 60 }

def ofEpoch (seconds : Int) (nanosecond : Nat) : Timestamp :=
  let (year, month, day) := dateOf (seconds / 86400)
  let ofDay := (seconds % 86400).toNat
  { year, month, day, hour := ofDay / 3600, minute := ofDay / 60 % 60,
    second := ofDay % 60, nanosecond }

def padded (width n : Nat) : List Char :=
  let digits := decimal n
  List.replicate (width - digits.length) '0' ++ digits

def yearText (year : Int) : List Char :=
  if 0 ≤ year && year ≤ 9999 then padded 4 year.toNat
  else (if year < 0 then '-' else '+') :: padded 4 year.natAbs

def fractionText (nanosecond : Nat) : List Char :=
  if nanosecond == 0 then []
  else if nanosecond % 1000000 == 0 then '.' :: padded 3 (nanosecond / 1000000)
  else if nanosecond % 1000 == 0 then '.' :: padded 6 (nanosecond / 1000)
  else '.' :: padded 9 nanosecond

def text (t : Timestamp) : String :=
  String.ofList (yearText t.year ++ '-' :: padded 2 t.month ++ '-' :: padded 2 t.day ++
    'T' :: padded 2 t.hour
    ++ ':' :: padded 2 t.minute ++ ':' :: padded 2 t.second ++ fractionText t.nanosecond ++ ['Z'])

def number? (most : Nat) (s : List Char) : Option (Nat × List Char) :=
  let found := (s.take most).takeWhile Char.isDigit
  (digits? 10 found).map fun n => (n, s.drop found.length)

def numberIn? (low high : Nat) (s : List Char) : Option (Nat × List Char) :=
  (number? 2 (trimStart s)).filter fun p => low ≤ p.1 && p.1 ≤ high

def year? (s : List Char) : Option (Int × List Char) :=
  match trimStart s with
  | '-' :: rest => (number? rest.length rest).map fun p => (-(p.1 : Int), p.2)
  | '+' :: rest => (number? rest.length rest).map fun p => ((p.1 : Int), p.2)
  | rest => (number? 4 rest).map fun p => ((p.1 : Int), p.2)

def mark? (mark : Char) (s : List Char) : Option (List Char) :=
  match trimStart s with
  | c :: rest => if c = mark then some rest else none
  | [] => none

def fraction? (s : List Char) : Option (Nat × List Char) :=
  match s with
  | '.' :: rest => do
    let (n, after) ← number? 9 rest
    let count := rest.length - after.length
    return (n * Nat.pow 10 (9 - count), after.dropWhile Char.isDigit)
  | _ => some (0, s)

def pair? (s : List Char) : Option (Nat × List Char) :=
  match s with
  | a :: b :: rest => (digits? 10 [a, b]).map fun n => (n, rest)
  | _ => none

def offset? (s : List Char) : Option (Int × List Char) :=
  let signed (sign : Int) (rest : List Char) : Option (Int × List Char) := do
    let (hours, rest) ← pair? rest
    let (minutes, rest) ← pair? (rest.dropWhile fun c => c == ':' || isBlank c)
    if minutes < 60 ∧ hours < 24 then some (sign * (hours * 60 + minutes), rest) else none
  match s with
  | 'Z' :: rest | 'z' :: rest => some (0, rest)
  | '+' :: rest => signed 1 rest
  | '-' :: rest | '\u2212' :: rest => signed (-1) rest
  | _ => if (s.take 3).map Char.toUpper == ['U', 'T', 'C'] then some (0, s.drop 3) else none

def isSeparator (c : Char) : Bool := c == 't' || c == 'T' || c == ' '

def afterSeparator? (s : List Char) : Option (List Char) :=
  match s with
  | c :: rest => if isSeparator c then some rest else none
  | [] => none

def isYear (year : Int) : Bool := -262143 ≤ year && year ≤ 262142

/-- A date, a time and an offset from UTC. Blanks may stand around the numbers. -/
def read? (s : String) : Option Timestamp := do
  let (year, s) ← year? s.toList
  let (month, s) ← (mark? '-' s).bind (numberIn? 1 12)
  let (day, s) ← (mark? '-' s).bind (numberIn? 1 31)
  let (hour, s) ← (afterSeparator? s).bind (numberIn? 0 23)
  let (minute, s) ← (mark? ':' s).bind (numberIn? 0 59)
  let (second, s) ← (mark? ':' s).bind (numberIn? 0 60)
  let (nanosecond, s) ← fraction? s
  let (offset, s) ← offset? (trimStart s)
  if isYear year && day ≤ daysIn year month && (trimStart s).isEmpty then
    let t : Timestamp := { year, month, day, hour, minute, second, nanosecond }
    (some (t.minutesBefore offset)).filter fun u => isYear u.year
  else none

end Timestamp

end MigrationPlan
