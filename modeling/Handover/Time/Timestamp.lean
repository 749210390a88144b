import Handover.Number.Numeral
import Handover.Time.Instant

/-!
# Timestamp text

Timestamps are read in the RFC 3339 form with some freedom (blanks between the parts, `t`, `z` or a blank
for the letters, no colon in the offset) and written in UTC with the fewest of 0, 3, 6 or 9 fraction digits
that lose nothing.
-/

namespace Handover

namespace Calendar

/-- Days from the start of 1970 to a date of the Gregorian calendar. -/
def daysOfDate (year : Int) (month day : Nat) : Int :=
  let y := if month ≤ 2 then year - 1 else year
  let era := y.fdiv 400
  let yearOfEra := y - era * 400
  let shifted : Int := ((month + 9) % 12 : Nat)
  let dayOfYear := (153 * shifted + 2).fdiv 5 + (day : Int) - 1
  let dayOfEra := yearOfEra * 365 + yearOfEra.fdiv 4 - yearOfEra.fdiv 100 + dayOfYear
  era * 146097 + dayOfEra - 719468

/-- The date that many days after the start of 1970: year, month, day. -/
def dateOfDays (days : Int) : Int × Nat × Nat :=
  let z := days + 719468
  let era := z.fdiv 146097
  let dayOfEra := z - era * 146097
  let yearOfEra :=
    (dayOfEra - dayOfEra.fdiv 1460 + dayOfEra.fdiv 36524 - dayOfEra.fdiv 146096).fdiv 365
  let dayOfYear := dayOfEra - (365 * yearOfEra + yearOfEra.fdiv 4 - yearOfEra.fdiv 100)
  let shifted := (5 * dayOfYear + 2).fdiv 153
  let day := dayOfYear - (153 * shifted + 2).fdiv 5 + 1
  let month := if shifted < 10 then shifted + 3 else shifted - 9
  let year := yearOfEra + era * 400 + (if month ≤ 2 then 1 else 0)
  (year, month.toNat, day.toNat)

def leapYear (year : Int) : Bool := year % 4 == 0 && (year % 100 != 0 || year % 400 == 0)

def monthLength (year : Int) (month : Nat) : Nat :=
  if month = 2 then if leapYear year then 29 else 28
  else if month = 4 ∨ month = 6 ∨ month = 9 ∨ month = 11 then 30
  else 31

def firstYear : Int := -262143

def lastYear : Int := 262142

def validDate (year : Int) (month day : Nat) : Bool :=
  firstYear ≤ year && year ≤ lastYear && 1 ≤ month && month ≤ 12 && 1 ≤ day
    && day ≤ monthLength year month

end Calendar

namespace Timestamp
open Calendar

def isBlank (c : Char) : Bool :=
  let n := c.toNat
  (9 ≤ n && n ≤ 13) || n == 32 || n == 0x85 || n == 0xA0 || n == 0x1680 || (0x2000 ≤ n && n ≤ 0x200A)
    || n == 0x2028 || n == 0x2029 || n == 0x202F || n == 0x205F || n == 0x3000

def skipBlanks (cs : List Char) : List Char := cs.dropWhile isBlank

def digits (most : Nat) (cs : List Char) : Option (List Char × List Char) :=
  let ds := (cs.take most).takeWhile Char.isDigit
  if ds.isEmpty then none else some (ds, cs.drop ds.length)

def number (most : Nat) (cs : List Char) : Option (Nat × List Char) := do
  let (ds, rest) ← digits most (skipBlanks cs)
  return (Numeral.value ds, rest)

/-- Four digits, or any number of them behind a sign. -/
def year (cs : List Char) : Option (Int × List Char) :=
  match skipBlanks cs with
  | '-' :: rest => do
    let (ds, rest) ← digits rest.length rest
    return (-(Numeral.value ds : Int), rest)
  | '+' :: rest => do
    let (ds, rest) ← digits rest.length rest
    return (Numeral.value ds, rest)
  | rest => do
    let (ds, rest) ← digits 4 rest
    return (Numeral.value ds, rest)

def mark (c : Char) (cs : List Char) : Option (List Char) :=
  match skipBlanks cs with
  | d :: rest => if d = c then some rest else none
  | [] => none

/-- Nanoseconds behind a point; digits after the ninth are dropped. -/
def fraction : List Char → Option (Nat × List Char)
  | '.' :: cs => do
    let (ds, rest) ← digits 9 cs
    return (Numeral.value ds * Nat.pow 10 (9 - ds.length), rest.dropWhile Char.isDigit)
  | cs => some (0, cs)

def twoDigits : List Char → Option (Nat × List Char)
  | a :: b :: rest => if a.isDigit && b.isDigit then some (Numeral.value [a, b], rest) else none
  | _ => none

def offset (cs : List Char) : Option (Int × List Char) :=
  match cs with
  | 'Z' :: rest | 'z' :: rest => some (0, rest)
  | u :: t :: c :: rest =>
    if u.toLower = 'u' ∧ t.toLower = 't' ∧ c.toLower = 'c' then some (0, rest)
    else do
      let sign : Int ← if u = '+' then some 1 else if u = '-' ∨ u = '−' then some (-1) else none
      let (hours, rest) ← twoDigits (t :: c :: rest)
      let (minutes, rest) ← twoDigits (rest.dropWhile fun c => c = ':' || isBlank c)
      if 60 ≤ minutes ∨ 24 ≤ hours then none
      return (sign * ((hours * 3600 + minutes * 60 : Nat) : Int), rest)
  | _ => none

def read? (text : String) : Option Instant := do
  let (y, cs) ← year text.toList
  let cs ← mark '-' cs
  let (month, cs) ← number 2 cs
  let cs ← mark '-' cs
  let (day, cs) ← number 2 cs
  let t :: cs := cs | none
  if !(t = 'T' ∨ t = 't' ∨ t = ' ') then none
  let (hour, cs) ← number 2 cs
  let cs ← mark ':' cs
  let (minute, cs) ← number 2 cs
  let cs ← mark ':' cs
  let (second, cs) ← number 2 cs
  let (nanos, cs) ← fraction cs
  let (east, cs) ← offset (skipBlanks cs)
  if !(skipBlanks cs).isEmpty then none
  if !validDate y month day ∨ 24 ≤ hour ∨ 60 ≤ minute ∨ 61 ≤ second then none
  let (second, nanos) := if second = 60 then (59, nanos + billion) else (second, nanos)
  let days := daysOfDate y month day
  let seconds := days * 86400 + ((hour * 3600 + minute * 60 + second : Nat) : Int) - east
  let (there, _, _) := dateOfDays (seconds.fdiv 86400)
  if there < firstYear ∨ lastYear < there then none
  return ⟨seconds, nanos⟩

def padded (width : Nat) (n : Nat) : List Char :=
  let ds := Nat.toDigits 10 n
  List.replicate (width - ds.length) '0' ++ ds

/-- Years outside 0 … 9999 carry a sign. -/
def yearText (y : Int) : List Char :=
  if 0 ≤ y ∧ y ≤ 9999 then padded 4 y.toNat
  else (if y < 0 then '-' else '+') :: padded 4 y.natAbs

def fractionText (nanos : Nat) : List Char :=
  if nanos = 0 then []
  else if nanos % 1000000 = 0 then '.' :: padded 3 (nanos / 1000000)
  else if nanos % 1000 = 0 then '.' :: padded 6 (nanos / 1000)
  else '.' :: padded 9 nanos

/-- A leap second is written as second 60. -/
def write (t : Instant) : String :=
  let (y, month, day) := dateOfDays (t.second.fdiv 86400)
  let ofDay := t.secondOfDay.toNat
  let leap := decide (billion ≤ t.nanos)
  let second := ofDay % 60 + (if leap then 1 else 0)
  let nanos := if leap then t.nanos - billion else t.nanos
  String.ofList <| yearText y ++ '-' :: padded 2 month ++ '-' :: padded 2 day
    ++ 'T' :: padded 2 (ofDay / 3600) ++ ':' :: padded 2 (ofDay / 60 % 60) ++ ':' :: padded 2 second
    ++ fractionText nanos ++ ['Z']

end Timestamp
end Handover
