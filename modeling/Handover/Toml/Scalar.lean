import Handover.Config.Setting
import Handover.Time.Timestamp

/-!
# TOML scalars

Strings, numbers, dates and times of a TOML text. A reader gives the value at the start of the text and
what is behind it.
-/

namespace Handover
namespace Toml

abbrev Reader (α : Type) := List Char → Option (α × List Char)

def isBlank (c : Char) : Bool := c = ' ' || c = '\t'

def skipBlanks (cs : List Char) : List Char := cs.dropWhile isBlank

/-- Tabs are the only control characters that a text may hold outside its line ends. -/
def isPlain (c : Char) : Bool := c = '\t' || (32 ≤ c.toNat && c.toNat ≠ 127)

def lineEnd : List Char → Option (List Char)
  | '\n' :: rest => some rest
  | '\r' :: '\n' :: rest => some rest
  | _ => none

def hexValue? (c : Char) : Option Nat :=
  if c.isDigit then some (c.toNat - '0'.toNat)
  else if 'a' ≤ c ∧ c ≤ 'f' then some (c.toNat - 'a'.toNat + 10)
  else if 'A' ≤ c ∧ c ≤ 'F' then some (c.toNat - 'A'.toNat + 10)
  else none

def coded (digits : List Char) : Option Char := do
  let n ← digits.foldlM (fun n c => (hexValue? c).map (n * 16 + ·)) 0
  if n < 0xD800 ∨ (0xDFFF < n ∧ n < 0x110000) then some (Char.ofNat n) else none

def escaped? (c : Char) : Option Char :=
  match c with
  | 'b' => some (Char.ofNat 8)
  | 't' => some '\t'
  | 'n' => some '\n'
  | 'f' => some (Char.ofNat 12)
  | 'r' => some '\r'
  | '"' => some '"'
  | '\\' => some '\\'
  | _ => none

def basic : Reader (List Char)
  | [] => none
  | '"' :: rest => some ([], rest)
  | '\\' :: 'u' :: a :: b :: c :: d :: rest => do
    let (cs, rest) ← basic rest
    return ((← coded [a, b, c, d]) :: cs, rest)
  | '\\' :: 'U' :: a :: b :: c :: d :: e :: f :: g :: h :: rest => do
    let (cs, rest) ← basic rest
    return ((← coded [a, b, c, d, e, f, g, h]) :: cs, rest)
  | '\\' :: c :: rest => do
    let (cs, rest) ← basic rest
    return ((← escaped? c) :: cs, rest)
  | c :: rest =>
    if isPlain c ∧ c ≠ '\\' then (basic rest).map fun (cs, rest) => (c :: cs, rest) else none

def literal : Reader (List Char)
  | [] => none
  | '\x27' :: rest => some ([], rest)
  | c :: rest =>
    if isPlain c then (literal rest).map fun (cs, rest) => (c :: cs, rest) else none

/-- Up to two more quotes in front of the three that close a string belong to it. -/
def closing (quote : Char) : Reader (List Char)
  | a :: b :: rest =>
    if a = quote ∧ b = quote then some ([a, b], rest)
    else if a = quote then some ([a], b :: rest)
    else some ([], a :: b :: rest)
  | [a] => if a = quote then some ([a], []) else some ([], [a])
  | [] => some ([], [])

/-- Where a reader stands behind a backslash that joins lines. -/
inductive Joint where
  | none
  /-- Only blanks so far, a line end must come. -/
  | open
  /-- Blanks and line ends are dropped. -/
  | closed
  deriving DecidableEq

/-- The rest of a string over several lines. Every line end counts as one line feed. -/
def lines (joint : Joint) : Reader (List Char)
  | [] => none
  | '\r' :: '\n' :: rest =>
    if joint = .none then (lines .none rest).map fun (cs, rest) => ('\n' :: cs, rest)
    else lines .closed rest
  | '\n' :: rest =>
    if joint = .none then (lines .none rest).map fun (cs, rest) => ('\n' :: cs, rest)
    else lines .closed rest
  | '"' :: '"' :: '"' :: rest => if joint = .open then none else closing '"' rest
  | '\\' :: 'u' :: a :: b :: c :: d :: rest =>
    if joint = .open then none
    else do
      let (cs, rest) ← lines .none rest
      return ((← coded [a, b, c, d]) :: cs, rest)
  | '\\' :: 'U' :: a :: b :: c :: d :: e :: f :: g :: h :: rest =>
    if joint = .open then none
    else do
      let (cs, rest) ← lines .none rest
      return ((← coded [a, b, c, d, e, f, g, h]) :: cs, rest)
  | '\\' :: c :: rest =>
    if joint = .open then none
    else if isBlank c ∨ c = '\n' ∨ c = '\r' then lines .open (c :: rest)
    else do
      let (cs, rest) ← lines .none rest
      return ((← escaped? c) :: cs, rest)
  | c :: rest =>
    if joint ≠ .none ∧ isBlank c then lines joint rest
    else if joint = .open then none
    else if isPlain c ∧ c ≠ '\\' then
      (lines .none rest).map fun (cs, rest) => (c :: cs, rest)
    else none

def literalLines : Reader (List Char)
  | [] => none
  | '\r' :: '\n' :: rest => (literalLines rest).map fun (cs, rest) => ('\n' :: cs, rest)
  | '\n' :: rest => (literalLines rest).map fun (cs, rest) => ('\n' :: cs, rest)
  | '\x27' :: '\x27' :: '\x27' :: rest => closing '\x27' rest
  | c :: rest =>
    if isPlain c then (literalLines rest).map fun (cs, rest) => (c :: cs, rest) else none

/-- A line end right behind the opening quotes does not count. -/
def firstLine (cs : List Char) : List Char := (lineEnd cs).getD cs

/-- A string, of any of the four kinds. -/
def string : Reader String
  | '"' :: '"' :: '"' :: rest => (lines .none (firstLine rest)).map fun (cs, r) => (String.ofList cs, r)
  | '\x27' :: '\x27' :: '\x27' :: rest =>
    (literalLines (firstLine rest)).map fun (cs, r) => (String.ofList cs, r)
  | '"' :: rest => (basic rest).map fun (cs, r) => (String.ofList cs, r)
  | '\x27' :: rest => (literal rest).map fun (cs, r) => (String.ofList cs, r)
  | _ => none

/-! ## Numbers -/

/-- Digits that go on; an underscore stands between two of them. -/
def moreDigits (ok : Char → Bool) : Reader (List Char)
  | '_' :: c :: rest =>
    if ok c then (moreDigits ok rest).map fun (ds, rest) => (c :: ds, rest) else none
  | '_' :: [] => none
  | c :: rest =>
    if ok c then (moreDigits ok rest).map fun (ds, rest) => (c :: ds, rest) else some ([], c :: rest)
  | [] => some ([], [])

def digitRun (ok : Char → Bool) : Reader (List Char)
  | c :: rest => if ok c then (moreDigits ok rest).map fun (ds, rest) => (c :: ds, rest) else none
  | [] => none

def wholeDigits : Reader (List Char)
  | '0' :: rest => some (['0'], rest)
  | cs => digitRun Char.isDigit cs

def fractionDigits : Reader (Option (List Char))
  | '.' :: rest => (digitRun Char.isDigit rest).map fun (ds, rest) => (some ds, rest)
  | cs => some (none, cs)

def power : Reader (Option Int)
  | 'e' :: rest | 'E' :: rest =>
    let (sign, rest) : Int × List Char := match rest with
      | '-' :: rest => (-1, rest)
      | '+' :: rest => (1, rest)
      | rest => (1, rest)
    (digitRun Char.isDigit rest).map fun (ds, rest) => (some (sign * Numeral.value ds), rest)
  | cs => some (none, cs)

/-- A whole number within 64 bits, or a number too small to be infinite. -/
def decimal (negative : Bool) : Reader Setting := fun cs => do
  let (whole, cs) ← wholeDigits cs
  let (fraction, cs) ← fractionDigits cs
  let (exponent, cs) ← power cs
  match fraction, exponent with
  | none, none =>
    let n := Numeral.value whole
    if negative then
      if n ≤ Nat.pow 2 63 then return (.int (-(n : Int)), cs) else none
    else if n < Nat.pow 2 63 then return (.int n, cs) else none
  | _, _ =>
    let places := fraction.getD []
    match Double.ofDecimal negative (Numeral.value (whole ++ places)) (exponent.getD 0 - places.length) with
    | .infinite false => none
    | x => return (.float x, cs)

def based (base : Nat) : Reader Setting := fun cs => do
  let ok (c : Char) := match hexValue? c with
    | some n => decide (n < base)
    | none => false
  let (ds, cs) ← digitRun ok cs
  let n := ds.foldl (fun n c => n * base + (hexValue? c).getD 0) 0
  if n < Nat.pow 2 63 then return (.int n, cs) else none

def special (negative : Bool) (cs : List Char) : Reader Setting := fun whole =>
  match cs with
  | 'i' :: 'n' :: 'f' :: rest => some (.float (.infinite negative), rest)
  | 'n' :: 'a' :: 'n' :: rest => some (.float .nan, rest)
  | _ => decimal negative whole

def number : Reader Setting
  | '0' :: 'x' :: rest => based 16 rest
  | '0' :: 'o' :: rest => based 8 rest
  | '0' :: 'b' :: rest => based 2 rest
  | '-' :: rest => special true rest rest
  | '+' :: rest => special false rest rest
  | cs => special false cs cs

/-! ## Dates and times -/

def fixed (count : Nat) : Reader Nat := fun cs =>
  let ds := cs.take count
  if ds.length = count ∧ ds.all Char.isDigit then some (Numeral.value ds, cs.drop count) else none

def mark (c : Char) (cs : List Char) : Option (List Char) :=
  match cs with
  | d :: rest => if d = c then some rest else none
  | [] => none

def within (low high count : Nat) : Reader Nat := fun cs => do
  let (n, cs) ← fixed count cs
  if low ≤ n ∧ n ≤ high then some (n, cs) else none

def padded (width n : Nat) : List Char := Timestamp.padded width n

def date : Reader (List Char) := fun cs => do
  let (year, cs) ← fixed 4 cs
  let cs ← mark '-' cs
  let (month, cs) ← within 1 12 2 cs
  let cs ← mark '-' cs
  let (day, cs) ← within 1 (Calendar.monthLength year month) 2 cs
  return (padded 4 year ++ '-' :: padded 2 month ++ '-' :: padded 2 day, cs)

/-- A part of a second is kept to nine digits and written without zeros at its end. -/
def secondPart : Reader (List Char)
  | '.' :: cs =>
    let ds := cs.takeWhile Char.isDigit
    let kept := ((ds.take 9).reverse.dropWhile (· = '0')).reverse
    if ds.isEmpty then none
    else some (if kept.isEmpty then [] else '.' :: kept, cs.drop ds.length)
  | cs => some ([], cs)

def time : Reader (List Char) := fun cs => do
  let (hour, cs) ← within 0 23 2 cs
  let cs ← mark ':' cs
  let (minute, cs) ← within 0 59 2 cs
  let cs ← mark ':' cs
  let (second, cs) ← within 0 60 2 cs
  let (part, cs) ← secondPart cs
  return (padded 2 hour ++ ':' :: padded 2 minute ++ ':' :: padded 2 second ++ part, cs)

/-- The distance of a clock from UTC. None at all is no distance with a plus sign. -/
def offset : Reader (List Char)
  | 'Z' :: rest | 'z' :: rest => some (['Z'], rest)
  | sign :: rest =>
    if sign = '+' ∨ sign = '-' then do
      let (hours, rest) ← within 0 23 2 rest
      let rest ← mark ':' rest
      let (minutes, rest) ← within 0 59 2 rest
      let sign := if hours = 0 ∧ minutes = 0 then '+' else sign
      return (sign :: padded 2 hours ++ ':' :: padded 2 minutes, rest)
    else some ([], sign :: rest)
  | [] => some ([], [])

def startsWith (count : Nat) (c : Char) (cs : List Char) : Bool :=
  (fixed count cs).isSome && (cs.drop count).head? = some c

/-- A date, a time, or both with a letter or a blank between them and perhaps an offset. Their text is
all that is kept. -/
def moment : Reader Setting := fun cs => do
  if startsWith 4 '-' cs then
    let (day, cs) ← date cs
    match cs with
    | t :: rest =>
      if (t = 'T' ∨ t = 't' ∨ t = ' ') ∧ startsWith 2 ':' rest then
        let (hour, rest) ← time rest
        let (zone, rest) ← offset rest
        return (.text (String.ofList (day ++ 'T' :: hour ++ zone)), rest)
      else return (.text (String.ofList day), cs)
    | [] => return (.text (String.ofList day), [])
  else
    let (hour, cs) ← time cs
    return (.text (String.ofList hour), cs)

def scalar : Reader Setting
  | 't' :: 'r' :: 'u' :: 'e' :: rest => some (.bool true, rest)
  | 'f' :: 'a' :: 'l' :: 's' :: 'e' :: rest => some (.bool false, rest)
  | cs => if startsWith 4 '-' cs || startsWith 2 ':' cs then moment cs else number cs

end Toml
end Handover
