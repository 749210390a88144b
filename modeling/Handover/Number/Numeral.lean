import Handover.Number.Double

/-!
# Numerals

Numbers written with the digits `0` to `9`, as they stand in texts of any format. Each reader takes the
whole text or nothing.
-/

namespace Handover
namespace Numeral

/-- The number that a run of digits writes. -/
def value (digits : List Char) : Nat := digits.foldl (fun n c => n * 10 + (c.toNat - '0'.toNat)) 0

def digits? (cs : List Char) : Option Nat :=
  if !cs.isEmpty && cs.all Char.isDigit then some (value cs) else none

/-- Digits, after a plus sign or none. -/
def nat? : List Char → Option Nat
  | '+' :: rest => digits? rest
  | cs => digits? cs

def nat64? (cs : List Char) : Option Nat := (nat? cs).filter (· < Nat.pow 2 64)

def int64? : List Char → Option Int
  | '-' :: rest => (digits? rest).bind fun n => if n ≤ Nat.pow 2 63 then some (-(n : Int)) else none
  | cs => (nat? cs).bind fun n => if n < Nat.pow 2 63 then some (n : Int) else none

def lower (cs : List Char) : List Char := cs.map Char.toLower

/-- Digits on one side of the point at least, then perhaps a power of ten. -/
def unsigned? (negative : Bool) (cs : List Char) : Option Double :=
  let whole := cs.takeWhile Char.isDigit
  let rest := cs.drop whole.length
  let (fraction, rest) := match rest with
    | '.' :: rest =>
      let ds := rest.takeWhile Char.isDigit
      (ds, rest.drop ds.length)
    | rest => ([], rest)
  let number (power : Int) := Double.ofDecimal negative (value (whole ++ fraction)) (power - fraction.length)
  if whole.isEmpty && fraction.isEmpty then none
  else match rest with
    | [] => some (number 0)
    | e :: rest =>
      if e = 'e' ∨ e = 'E' then
        match rest with
        | '-' :: ds => (digits? ds).map fun n => number (-(n : Int))
        | ds => (nat? ds).map fun n => number n
      else none

/-- A decimal number, `inf`, `infinity` or `nan` in any case, after a sign or none. -/
def double? (cs : List Char) : Option Double :=
  let (negative, cs) : Bool × List Char := match cs with
    | '-' :: rest => (true, rest)
    | '+' :: rest => (false, rest)
    | cs => (false, cs)
  let word := String.ofList (lower cs)
  if word = "inf" ∨ word = "infinity" then some (.infinite negative)
  else if word = "nan" then some .nan
  else unsigned? negative cs

end Numeral
end Handover
