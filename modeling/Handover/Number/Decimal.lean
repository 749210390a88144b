import Handover.Number.Numeral
import Handover.Number.Shortest

/-!
# Amounts

A `Decimal` is a mantissa below `2 ^ 96` over a power of ten up to `10 ^ 28`. The scale is part of the
value as written (`125.40`) but not of its size: `same` compares sizes. Digits that do not fit behind
the point are rounded on the first one dropped.
-/

namespace Handover

structure Decimal where
  negative : Bool := false
  mantissa : Nat := 0
  scale : Nat := 0
  deriving DecidableEq, Repr, Inhabited

namespace Decimal

def mantissaLimit : Nat := Nat.pow 2 96

def scaleLimit : Nat := 28

/-- Zero carries no sign. -/
def make (negative : Bool) (mantissa scale : Nat) : Decimal :=
  { negative := negative && mantissa != 0, mantissa, scale }

def ofInt (i : Int) : Decimal := make (decide (i < 0)) i.natAbs 0

def size (d : Decimal) : Int := if d.negative then -(d.mantissa : Int) else d.mantissa

def same (a b : Decimal) : Bool := a.size * Nat.pow 10 b.scale == b.size * Nat.pow 10 a.scale

instance : BEq Decimal := ⟨same⟩

/-- Always positional, with as many fraction digits as the scale says. -/
def text (d : Decimal) : String :=
  let digits := Nat.toDigits 10 d.mantissa
  let padded := List.replicate (d.scale + 1 - digits.length) '0' ++ digits
  let whole := padded.take (padded.length - d.scale)
  let fraction := padded.drop (padded.length - d.scale)
  (if d.negative then "-" else "") ++
    String.ofList (if d.scale = 0 then whole else whole ++ '.' :: fraction)

def digit? (c : Char) : Option Nat := if c.isDigit then some (c.toNat - '0'.toNat) else none

/-- The value with the first digit that does not fit taken into account; what follows it is not read. -/
def rounded (negative : Bool) (mantissa scale : Nat) (next : Char) : Option Decimal := do
  let digit ← if next = '_' ∨ next = '.' then some 0 else digit? next
  if digit < 5 then return make negative mantissa scale
  let up := mantissa + 1
  if up < mantissaLimit then return make negative up scale
  if scale = 0 then none
  return make negative ((up + 4) / 10) (scale - 1)

/-- Reads digits, one point, and underscores after the first digit. -/
def readDigits (negative : Bool) (mantissa scale : Nat) (point some? : Bool) : List Char → Option Decimal
  | [] => if some? then some (make negative mantissa scale) else none
  | c :: rest =>
    if point ∧ scaleLimit ≤ scale then rounded negative mantissa scale c
    else match digit? c with
      | some d =>
        let next := mantissa * 10 + d
        if next < mantissaLimit then
          readDigits negative next (if point then scale + 1 else scale) point true rest
        else if point then rounded negative mantissa scale c
        else none
      | none =>
        if c = '.' ∧ !point then readDigits negative mantissa scale true some? rest
        else if c = '_' ∧ some? then readDigits negative mantissa scale point true rest
        else none

def ofPlain? : List Char → Option Decimal
  | '-' :: rest => readDigits true 0 0 false false rest
  | '+' :: rest => readDigits false 0 0 false false rest
  | cs => readDigits false 0 0 false false cs

def ofScientific? (cs : List Char) : Option Decimal := do
  let base := cs.takeWhile fun c => c ≠ 'e' ∧ c ≠ 'E'
  let _ :: power := cs.drop base.length | none
  let d ← ofPlain? base
  match power with
  | '-' :: rest =>
    let p ← Numeral.nat? rest
    if Nat.pow 2 32 ≤ p ∨ scaleLimit < d.scale + p then none
    return make d.negative d.mantissa (d.scale + p)
  | _ =>
    let p ← Numeral.nat? power
    if Nat.pow 2 32 ≤ p then none
    if p ≤ d.scale then return make d.negative d.mantissa (d.scale - p)
    if scaleLimit < p then none
    let m := d.mantissa * Nat.pow 10 (p - d.scale)
    if m < mantissaLimit then return make d.negative m 0
    none

/-- Positional notation is tried first, then a power of ten. -/
def ofText? (text : String) : Option Decimal :=
  let cs := text.toList
  match ofPlain? cs with
  | some d => some d
  | none => ofScientific? cs

def ofDouble? (d : Double) : Option Decimal := ofText? d.plain

end Decimal
end Handover
