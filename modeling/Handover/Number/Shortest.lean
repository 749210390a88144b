import Handover.Number.Double

/-!
# Shortest decimal text

`Double.shortest` gives the fewest decimal digits that read back as the same finite double, and of
those the ones nearest to it: for 1, 2, … 17 digits it tries the two neighbours on that decimal grid.
`positional` and `scientific` lay the digits out.
-/

namespace Handover

/-- The number `digits * 10 ^ exponent`, without trailing zeros unless it is zero. -/
structure DecimalDigits where
  digits : Nat
  exponent : Int
  deriving DecidableEq, Repr

namespace DecimalDigits

def decimalLength (n : Nat) : Nat := (Nat.toDigits 10 n).length

/-- Drops trailing zeros; `fuel` bounds how many. -/
def trim : Nat → DecimalDigits → DecimalDigits
  | 0, d => d
  | fuel + 1, d =>
    if d.digits ≠ 0 ∧ d.digits % 10 = 0 then trim fuel ⟨d.digits / 10, d.exponent + 1⟩ else d

def leading (d : DecimalDigits) : Int := d.exponent + decimalLength d.digits - 1

def digitText (n : Nat) : String := String.ofList (Nat.toDigits 10 n)

/-- Plain decimal text; whole numbers end in `.0` when `point` is set. -/
def positional (point : Bool) (d : DecimalDigits) : String :=
  let text := Nat.toDigits 10 d.digits
  let whole := if point then ['.', '0'] else []
  if d.digits = 0 then String.ofList ('0' :: whole)
  else if 0 ≤ d.exponent then
    String.ofList (text ++ List.replicate d.exponent.toNat '0' ++ whole)
  else
    let places := (-d.exponent).toNat
    if places < text.length then
      String.ofList (text.take (text.length - places) ++ '.' :: text.drop (text.length - places))
    else String.ofList (['0', '.'] ++ List.replicate (places - text.length) '0' ++ text)

def scientific (d : DecimalDigits) : String :=
  let power := d.leading
  let sign := if power < 0 then "-" else "+"
  let mantissa := match Nat.toDigits 10 d.digits with
    | [] => []
    | [c] => [c]
    | c :: rest => c :: '.' :: rest
  String.ofList mantissa ++ "e" ++ sign ++ digitText power.natAbs

end DecimalDigits

namespace Double
open DecimalDigits

/-- The decimal exponent of the first digit of `num / den`, for positive `num` and `den`. -/
def decimalLog (num den : Nat) : Int :=
  if den ≤ num then (decimalLength (num / den) : Int) - 1
  else -(decimalLength ((den + num - 1) / num - 1) : Int)

/-- The reals that round to a positive finite double, in units of a quarter of its last place: the
mantissa times four, the two ends, and whether the ends count. -/
structure Interval where
  low : Nat
  value : Nat
  high : Nat
  closed : Bool

def interval (mantissa : Nat) (exponent : Int) : Interval :=
  { low := if mantissa = Nat.pow 2 52 ∧ leastExponent < exponent then 4 * mantissa - 1 else 4 * mantissa - 2
    value := 4 * mantissa
    high := 4 * mantissa + 2
    closed := mantissa % 2 == 0 }

/-- The nearest decimal of `count` digits that reads back, if one does. -/
def tryDigits (i : Interval) (power : Int) (leading : Int) (count : Nat) : Option DecimalDigits :=
  let grid : Int := leading - count + 1
  let (vn, vd) := scale i.value 1 power
  let unit (n : Nat) : Nat × Nat :=
    if 0 ≤ grid then (n * Nat.pow 10 grid.toNat, 1) else (n, Nat.pow 10 (-grid).toNat)
  let (gn, gd) := unit 1
  let below := vn * gd / (vd * gn)
  let inside (n : Nat) : Bool :=
    let (cn, cd) := unit n
    let (ln, ld) := scale i.low 1 power
    let (hn, hd) := scale i.high 1 power
    if i.closed then ln * cd ≤ cn * ld && cn * hd ≤ hn * cd
    else ln * cd < cn * ld && cn * hd < hn * cd
  let above := below + 1
  /- Twice the value against the sum of the two neighbours. -/
  let nearer := 2 * vn * gd < (below + above) * gn * vd ∨
    (2 * vn * gd = (below + above) * gn * vd ∧ below % 2 = 0)
  let first := if nearer then below else above
  let second := if nearer then above else below
  if inside first then some ⟨first, grid⟩
  else if inside second then some ⟨second, grid⟩
  else none

def shortest (mantissa : Nat) (exponent : Int) : DecimalDigits :=
  if mantissa = 0 then ⟨0, 0⟩
  else
    let i := interval mantissa exponent
    let power := exponent - 2
    let (n, d) := scale i.value 1 power
    let leading := decimalLog n d
    let found := (List.range 17).findSome? fun k => tryDigits i power leading (k + 1)
    trim 400 (found.getD ⟨n / d, 0⟩)

/-- Plain decimal text without an exponent; whole numbers carry no fraction. -/
def plain : Double → String
  | .finite n m e => (if n then "-" else "") ++ (shortest m e).positional false
  | .infinite n => if n then "-inf" else "inf"
  | .nan => "NaN"

/-- The text of a number in JSON: plain from `10 ^ -5` up to below `10 ^ 16`, else with an exponent.
What is no finite number is `null`. -/
def jsonText : Double → String
  | .finite n m e =>
    let d := shortest m e
    let plainly := d.digits = 0 ∨ (-5 ≤ d.leading ∧ d.leading < 16)
    (if n then "-" else "") ++ if plainly then d.positional true else d.scientific
  | .infinite _ | .nan => "null"

end Double
end Handover
