/-!
# Random ids

An id is written as 32 hexadecimal digits in five groups. One digit says that the others are random, and
one has its upper bits fixed.
-/

namespace Handover
namespace Ident

def hexDigits (width : Nat) (n : Nat) : List Char :=
  let ds := Nat.toDigits 16 (n % Nat.pow 16 width)
  List.replicate (width - ds.length) '0' ++ ds

/-- The id made of a number's lower bits. -/
def ofNat (n : Nat) : String :=
  let variant := 8 + n / Nat.pow 16 15 % 4
  String.ofList <|
    hexDigits 8 (n / Nat.pow 16 22) ++ '-' :: hexDigits 4 (n / Nat.pow 16 18)
      ++ '-' :: '4' :: hexDigits 3 (n / Nat.pow 16 16) ++ '-' :: hexDigits 1 variant ++ hexDigits 3 (n / Nat.pow 16 12) ++ '-' :: hexDigits 12 n

end Ident
end Handover
