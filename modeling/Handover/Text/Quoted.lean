import Handover.Text.Hidden

/-!
# Quoted text

`Text.quoted` shows a string between quotes on one line, with escapes for what cannot be seen.
-/

namespace Handover.Text

def hexadecimal (n : Nat) : List Char := Nat.toDigits 16 n

def shown (c : Char) : List Char :=
  if c = '"' then ['\\', '"']
  else if c = '\\' then ['\\', '\\']
  else if c = '\t' then ['\\', 't']
  else if c = '\r' then ['\\', 'r']
  else if c = '\n' then ['\\', 'n']
  else if c.toNat = 0 then ['\\', '0']
  else if c.toNat < 32 ∨ isHidden c then ['\\', 'u', '\x7b'] ++ hexadecimal c.toNat ++ ['\x7d']
  else [c]

def quoted (s : String) : String := String.ofList ('"' :: s.toList.flatMap shown ++ ['"'])

end Handover.Text
