import Handover.Json.Value
import Handover.Number.Numeral

/-!
# Drafts

A draft is a JSON text read as far as it goes. What is wrong with the text stays at the place where it is
wrong, so that a reader of the draft meets a mismatch of types and a fault of the text in the order in which
they stand. A part that nobody reads is held to fewer rules: numbers may be out of range and escapes may
name half a surrogate pair.
-/

namespace Handover

/-- How a text stops being JSON: it breaks a rule, or it ends early. -/
inductive Break where
  | grammar
  | ended
  deriving DecidableEq, Repr, Inhabited

inductive Tail where
  | closed
  /-- The text breaks there, behind a comma or not, for a reader and for one who skips. -/
  | cut (comma : Bool) (read skipped : Break)
  /-- A member's name is no string: a value of another type, or itself broken. -/
  | oddName (broken : Option Break)
  deriving DecidableEq, Repr

inductive Draft where
  | null
  | bool (value : Bool)
  | int (value : Int)
  | float (value : Double)
  | huge
  | str (value : String)
  | mangled
  | arr (items : List Draft) (tail : Tail)
  | obj (members : List (Option String × Draft)) (tail : Tail)
  | broken (read skipped : Break)
  /-- A number or a literal that breaks off. -/
  | stuck (read skipped : Break)
  deriving Repr, Inhabited

namespace Draft

def isSpace (c : Char) : Bool := c = ' ' || c = '\n' || c = '\t' || c = '\r'

def skipSpace (cs : List Char) : List Char := cs.dropWhile isSpace

/-! ## Strings -/

inductive StringDraft where
  | whole (text : String) (rest : List Char)
  | mangled (rest : List Char)
  | broken (read skipped : Break)

def hexValue? (c : Char) : Option Nat :=
  if c.isDigit then some (c.toNat - '0'.toNat)
  else if 'a' ≤ c ∧ c ≤ 'f' then some (c.toNat - 'a'.toNat + 10)
  else if 'A' ≤ c ∧ c ≤ 'F' then some (c.toNat - 'A'.toNat + 10)
  else none

/-- Four hexadecimal digits. The text ends early if fewer than four bytes are left. -/
def hexFour (cs : List Char) : Except Break (Nat × List Char) :=
  match cs with
  | a :: b :: c :: d :: rest =>
    match hexValue? a, hexValue? b, hexValue? c, hexValue? d with
    | some a, some b, some c, some d => .ok (((a * 16 + b) * 16 + c) * 16 + d, rest)
    | _, _, _, _ => .error .grammar
  | _ => if cs.foldl (fun size c => size + c.utf8Size) 0 < 4 then .error .ended else .error .grammar

def plainEscape? (c : Char) : Option Char :=
  if c = '"' ∨ c = '\\' ∨ c = '/' then some c
  else if c = 'b' then some (Char.ofNat 8)
  else if c = 'f' then some (Char.ofNat 12)
  else if c = 'n' then some '\n'
  else if c = 'r' then some '\r'
  else if c = 't' then some '\t'
  else none

def isLead (n : Nat) : Bool := 0xD800 ≤ n && n ≤ 0xDBFF

def isTrail (n : Nat) : Bool := 0xDC00 ≤ n && n ≤ 0xDFFF

/-- The second half of a surrogate pair, if `cs` starts with one; `ok none` if it starts with
something else. -/
def trailHalf (cs : List Char) : Except Break (Option (Nat × List Char)) :=
  match cs with
  | [] => .error .ended
  | ['\\'] => .error .ended
  | '\\' :: 'u' :: rest =>
    match hexFour rest with
    | .error b => .error b
    | .ok (n, rest) => .ok (if isTrail n then some (n, rest) else none)
  | _ => .ok none

/-- The rest of a string behind its opening quote. `lost` says that half a pair came by; from there
on a reader has failed and the rest is only skipped. -/
def stringRest : Nat → (lost : Bool) → (text : List Char) → List Char → StringDraft
  | 0, _, _, _ => .broken .grammar .grammar
  | fuel + 1, lost, text, cs =>
    let stop (b : Break) := StringDraft.broken (if lost then .grammar else b) b
    match cs with
    | [] => stop .ended
    | '"' :: rest => if lost then .mangled rest else .whole (String.ofList text.reverse) rest
    | '\\' :: rest =>
      match rest with
      | [] => stop .ended
      | 'u' :: rest =>
        match hexFour rest with
        | .error b => stop b
        | .ok (n, rest) =>
          if lost then stringRest fuel true text rest
          else if isTrail n then stringRest fuel true text rest
          else if isLead n then
            match trailHalf rest with
            | .error b => stop b
            | .ok none => stringRest fuel true text rest
            | .ok (some (m, rest)) =>
              let code := 0x10000 + (n - 0xD800) * 0x400 + (m - 0xDC00)
              stringRest fuel false (Char.ofNat code :: text) rest
          else stringRest fuel false (Char.ofNat n :: text) rest
      | c :: rest =>
        match plainEscape? c with
        | some c => stringRest fuel lost (c :: text) rest
        | none => stop .grammar
    | c :: rest =>
      if c.toNat < 32 then stop .grammar else stringRest fuel lost (c :: text) rest

def readString (cs : List Char) : StringDraft := stringRest (cs.length + 1) false [] cs

/-! ## Numbers -/

def digitsOf (cs : List Char) : List Char := cs.takeWhile Char.isDigit

/-- The number within 64 bits stays whole, any other becomes the nearest double. -/
def wholeNumber (negative : Bool) (n : Nat) : Draft :=
  if negative then
    if n = 0 then .float (Double.zero true)
    else if n ≤ Nat.pow 2 63 then .int (-(n : Int))
    else .float (Double.ofInt (-(n : Int)))
  else if n < Nat.pow 2 64 then .int n
  else .float (Double.ofInt n)

def realNumber (negative : Bool) (digits : Nat) (exponent : Int) : Draft :=
  match Double.ofDecimal negative digits exponent with
  | .infinite _ => .huge
  | d => .float d

/-- A number stops before anything that cannot continue it. Where it must go on and the text ends, a
reader finds the text ended and one who skips finds a broken rule. -/
def brokenNumber (cs : List Char) : Draft :=
  .stuck (if cs.isEmpty then .ended else .grammar) .grammar

def exponentPart (cs : List Char) : Option (Int × List Char) ⊕ List Char :=
  match cs with
  | e :: rest =>
    if e = 'e' ∨ e = 'E' then
      let (sign, rest) : Int × List Char := match rest with
        | '-' :: rest => (-1, rest)
        | '+' :: rest => (1, rest)
        | rest => (1, rest)
      let ds := digitsOf rest
      if ds.isEmpty then .inr rest else .inl (some (sign * Numeral.value ds, rest.drop ds.length))
    else .inl none
  | [] => .inl none

def numberRest (negative : Bool) (whole cs : List Char) : Draft × Option (List Char) :=
  let power (digits : List Char) (places : Nat) (real : Bool) (cs : List Char) :=
    match exponentPart cs with
    | .inr rest => (brokenNumber rest, none)
    | .inl (some (e, rest)) => (realNumber negative (Numeral.value digits) (e - places), some rest)
    | .inl none =>
      if real then (realNumber negative (Numeral.value digits) (-(places : Int)), some cs)
      else (wholeNumber negative (Numeral.value digits), some cs)
  match cs with
  | '.' :: rest =>
    let ds := digitsOf rest
    if ds.isEmpty then (brokenNumber rest, none)
    else power (whole ++ ds) ds.length true (rest.drop ds.length)
  | _ => power whole 0 false cs

def readNumber (negative : Bool) (cs : List Char) : Draft × Option (List Char) :=
  match cs with
  | '0' :: rest =>
    match rest with
    | c :: _ => if c.isDigit then (.stuck .grammar .grammar, none) else numberRest negative ['0'] rest
    | [] => numberRest negative ['0'] []
  | _ =>
    let ds := digitsOf cs
    if ds.isEmpty then (brokenNumber cs, none) else numberRest negative ds (cs.drop ds.length)

/-! ## Values -/

def readWord (value : Draft) : (word cs : List Char) → Draft × Option (List Char)
  | [], cs => (value, some cs)
  | _, [] => (.stuck .ended .ended, none)
  | w :: word, c :: cs => if c = w then readWord value word cs else (.stuck .grammar .grammar, none)

mutual

/-- A value at the start of `cs`, and what is behind it unless the text breaks inside. Decimal numbers are rounded
correctly (`Double.ofDecimal`). -/
def readValue : Nat → List Char → Draft × Option (List Char)
  | 0, _ => (.broken .grammar .grammar, none)
  | fuel + 1, cs =>
    match skipSpace cs with
    | [] => (.broken .ended .ended, none)
    | '"' :: rest =>
      match readString rest with
      | .whole s rest => (.str s, some rest)
      | .mangled rest => (.mangled, some rest)
      | .broken r s => (.broken r s, none)
    | '[' :: rest =>
      let ((items, tail), rest) := readItems fuel true rest
      (.arr items tail, rest)
    | '\x7b' :: rest =>
      let ((members, tail), rest) := readMembers fuel true rest
      (.obj members tail, rest)
    | 'n' :: rest => readWord .null ['u', 'l', 'l'] rest
    | 't' :: rest => readWord (.bool true) ['r', 'u', 'e'] rest
    | 'f' :: rest => readWord (.bool false) ['a', 'l', 's', 'e'] rest
    | '-' :: rest => readNumber true rest
    | c :: rest =>
      if c.isDigit then readNumber false (c :: rest) else (.broken .grammar .grammar, none)

def readItems : Nat → (first : Bool) → List Char → (List Draft × Tail) × Option (List Char)
  | 0, _, _ => (([], .cut false .grammar .grammar), none)
  | fuel + 1, first, cs =>
    let item (cs : List Char) :=
      match readValue fuel cs with
      | (d, none) => (([d], .closed), none)
      | (d, some rest) =>
        let ((items, tail), rest) := readItems fuel false rest
        ((d :: items, tail), rest)
    match skipSpace cs with
    | [] => (([], .cut false .ended .ended), none)
    | ']' :: rest => (([], .closed), some rest)
    | c :: rest =>
      if first then item (c :: rest)
      else if c = ',' then
        match skipSpace rest with
        | [] => (([], .cut true .ended .ended), none)
        | ']' :: _ => (([], .cut true .grammar .grammar), none)
        | rest => item rest
      else (([], .cut false .grammar .grammar), none)

def readMembers : Nat → (first : Bool) → List Char →
    (List (Option String × Draft) × Tail) × Option (List Char)
  | 0, _, _ => (([], .cut false .grammar .grammar), none)
  | fuel + 1, first, cs =>
    let value (name : Option String) (cs : List Char) :=
      match skipSpace cs with
      | [] => (([(name, Draft.broken .ended .ended)], Tail.closed), none)
      | ':' :: rest =>
        match readValue fuel rest with
        | (d, none) => (([(name, d)], .closed), none)
        | (d, some rest) =>
          let ((members, tail), rest) := readMembers fuel false rest
          (((name, d) :: members, tail), rest)
      | _ => (([(name, .broken .grammar .grammar)], .closed), none)
    let member (comma : Bool) (cs : List Char) :=
      match cs with
      | '"' :: rest =>
        match readString rest with
        | .whole name rest => value (some name) rest
        | .mangled rest => value none rest
        | .broken r s => (([], .cut comma r s), none)
      | _ =>
        match readValue fuel cs with
        | (.broken r _, _) | (.stuck r _, _) => (([], .oddName (some r)), none)
        | (.huge, _) => (([], .oddName (some .grammar)), none)
        | _ => (([], .oddName none), none)
    match skipSpace cs with
    | [] => (([], .cut false .ended .ended), none)
    | '\x7d' :: rest => (([], .closed), some rest)
    | c :: rest =>
      if first then member false (c :: rest)
      else if c = ',' then
        match skipSpace rest with
        | [] => (([], .cut true .ended .ended), none)
        | '\x7d' :: _ => (([], .cut true .grammar .grammar), none)
        | rest => member true rest
      else (([], .cut false .grammar .grammar), none)

end

def ofText (text : String) : Draft × Bool :=
  let cs := text.toList
  match readValue (2 * cs.length + 2) cs with
  | (d, none) => (d, false)
  | (d, some rest) => (d, !(skipSpace rest).isEmpty)

end Draft

namespace Json

mutual

def draft : Json → Draft
  | .null => .null
  | .bool b => .bool b
  | .int i => .int i
  | .float d => .float d
  | .str s => .str s
  | .arr items => .arr (itemDrafts items) .closed
  | .obj members => .obj (memberDrafts members) .closed

def itemDrafts : List Json → List Draft
  | [] => []
  | a :: rest => draft a :: itemDrafts rest

def memberDrafts : List (String × Json) → List (Option String × Draft)
  | [] => []
  | (k, a) :: rest => (some k, draft a) :: memberDrafts rest

end

end Json
end Handover
