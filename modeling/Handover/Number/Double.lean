/-!
# Binary64 numbers

A `Double` is a sign, a mantissa and a power of two in canonical form, an infinity, or not a number.
`ofRatio` is the nearest double of an exact quotient, an exact tie going to the even mantissa; sums,
products and quotients are the exact results, rounded so.
-/

namespace Handover

/-- A finite double is `mantissa * 2 ^ exponent`: the mantissa is below `2 ^ 53`, and at least
`2 ^ 52` unless the exponent is the least one. -/
inductive Double where
  | finite (negative : Bool) (mantissa : Nat) (exponent : Int)
  | infinite (negative : Bool)
  | nan
  deriving DecidableEq, Repr

namespace Double

def leastExponent : Int := -1074

def greatestExponent : Int := 971

def zero (negative : Bool := false) : Double := .finite negative 0 leastExponent

instance : Inhabited Double := ⟨zero⟩

/-- The whole number nearest to `num / den`, the even one of two at the same distance. -/
def roundHalfEven (num den : Nat) : Nat :=
  let q := num / den
  let r := num % den
  if den < 2 * r ∨ (2 * r = den ∧ q % 2 = 1) then q + 1 else q

/-- `num / den` scaled by a power of two, as a quotient of naturals. -/
def scale (num den : Nat) (power : Int) : Nat × Nat :=
  if 0 ≤ power then (num * Nat.pow 2 power.toNat, den) else (num, den * Nat.pow 2 (-power).toNat)

/-- The greatest power of two not above `num / den`, for positive `num` and `den`. -/
def logRatio (num den : Nat) : Int :=
  let guess : Int := (num.log2 : Int) - den.log2
  let (n, d) := scale num den (-guess)
  if d ≤ n then guess else guess - 1

def ofMantissa (negative : Bool) (mantissa : Nat) (exponent : Int) : Double :=
  let (m, e) := if mantissa = Nat.pow 2 53 then (Nat.pow 2 52, exponent + 1) else (mantissa, exponent)
  if greatestExponent < e then .infinite negative else .finite negative m e

def ofRatio (negative : Bool) (num den : Nat) : Double :=
  if num = 0 then zero negative
  else
    let e := max (logRatio num den - 52) leastExponent
    let (n, d) := scale num den (-e)
    ofMantissa negative (roundHalfEven n d) e

def ofInt (i : Int) : Double := ofRatio (decide (i < 0)) i.natAbs 1

instance : IntCast Double := ⟨ofInt⟩

/-- The double nearest to `digits * 10 ^ exponent`. Past 400 places either way the result is known
without the power. -/
def ofDecimal (negative : Bool) (digits : Nat) (exponent : Int) : Double :=
  let reach : Int := exponent + (Nat.toDigits 10 digits).length
  if digits = 0 ∨ reach < -400 then zero negative
  else if 400 < reach then .infinite negative
  else if 0 ≤ exponent then ofRatio negative (digits * Nat.pow 10 exponent.toNat) 1
  else ofRatio negative digits (Nat.pow 10 (-exponent).toNat)

def isFinite : Double → Bool
  | .finite .. => true
  | _ => false

def isZero : Double → Bool
  | .finite _ 0 _ => true
  | _ => false

/-- Equality of numbers: the two zeros are equal and `nan` equals nothing. -/
def same : Double → Double → Bool
  | .finite n m e, .finite n' m' e' => (m == 0 && m' == 0) || (n == n' && m == m' && e == e')
  | .infinite n, .infinite n' => n == n'
  | _, _ => false

instance : BEq Double := ⟨same⟩

/-- The exact value of a finite double in units of `2 ^ exponent`, as a quotient of naturals. -/
def ratio (mantissa : Nat) (exponent : Int) : Nat × Nat := scale mantissa 1 exponent

def signed (negative : Bool) (n : Nat) : Int := if negative then -(n : Int) else n

def neg : Double → Double
  | .finite n m e => .finite (!n) m e
  | .infinite n => .infinite (!n)
  | .nan => .nan

def add : Double → Double → Double
  | .finite n m e, .finite n' m' e' =>
    let low := min e e'
    let sum := signed n (m * Nat.pow 2 (e - low).toNat) + signed n' (m' * Nat.pow 2 (e' - low).toNat)
    if sum = 0 then zero (n && n')
    else
      let (a, b) := ratio sum.natAbs low
      ofRatio (decide (sum < 0)) a b
  | .infinite n, .infinite n' => if n = n' then .infinite n else .nan
  | .infinite n, .finite .. => .infinite n
  | .finite .., .infinite n => .infinite n
  | .nan, _ | _, .nan => .nan

def mul : Double → Double → Double
  | .finite n m e, .finite n' m' e' =>
    let (a, b) := ratio (m * m') (e + e')
    ofRatio (n != n') a b
  | .infinite n, .infinite n' => .infinite (n != n')
  | .infinite n, .finite n' m _ => if m = 0 then .nan else .infinite (n != n')
  | .finite n m _, .infinite n' => if m = 0 then .nan else .infinite (n != n')
  | .nan, _ | _, .nan => .nan

def div : Double → Double → Double
  | .finite n m e, .finite n' m' e' =>
    if m' = 0 then if m = 0 then .nan else .infinite (n != n')
    else
      let (a, b) := scale m m' (e - e')
      ofRatio (n != n') a b
  | .infinite n, .finite n' .. => .infinite (n != n')
  | .finite n .., .infinite n' => zero (n != n')
  | .infinite _, .infinite _ => .nan
  | .nan, _ | _, .nan => .nan

instance : Neg Double := ⟨neg⟩
instance : Add Double := ⟨add⟩
instance : Mul Double := ⟨mul⟩
instance : Div Double := ⟨div⟩

/-- The whole number nearest to a double, a half going away from zero, cut to `0 … most`. -/
def toNatWithin (most : Nat) : Double → Nat
  | .finite true .. => 0
  | .finite false m e =>
    let (n, d) := ratio m e
    min most ((2 * n + d) / (2 * d))
  | .infinite negative => if negative then 0 else most
  | .nan => 0

end Double
end Handover
