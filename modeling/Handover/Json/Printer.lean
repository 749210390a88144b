import Handover.Json.Value
import Handover.Number.Shortest

/-!
# JSON text

`Json.render` writes a value without blanks; members come in the order of their names.
-/

namespace Handover
namespace Json

def hexDigit (n : Nat) : Char := (Nat.digitChar n)

/-- Quote, backslash and control characters are escaped, everything else stands for itself. -/
def escape (c : Char) : List Char :=
  if c = '"' then ['\\', '"']
  else if c = '\\' then ['\\', '\\']
  else if c = '\n' then ['\\', 'n']
  else if c = '\r' then ['\\', 'r']
  else if c = '\t' then ['\\', 't']
  else if c.toNat = 8 then ['\\', 'b']
  else if c.toNat = 12 then ['\\', 'f']
  else if c.toNat < 32 then ['\\', 'u', '0', '0', hexDigit (c.toNat / 16), hexDigit (c.toNat % 16)]
  else [c]

def quote (s : String) : List Char := '"' :: s.toList.flatMap escape ++ ['"']

def intText (i : Int) : List Char :=
  if i < 0 then '-' :: Nat.toDigits 10 i.natAbs else Nat.toDigits 10 i.natAbs

mutual

def chars : Json → List Char
  | .null => ['n', 'u', 'l', 'l']
  | .bool true => ['t', 'r', 'u', 'e']
  | .bool false => ['f', 'a', 'l', 's', 'e']
  | .int i => intText i
  | .float d => d.jsonText.toList
  | .str s => quote s
  | .arr items => '[' :: itemChars items ++ [']']
  | .obj members => '\x7b' :: memberChars members ++ ['\x7d']

def itemChars : List Json → List Char
  | [] => []
  | [a] => chars a
  | a :: rest => chars a ++ ',' :: itemChars rest

def memberChars : List (String × Json) → List Char
  | [] => []
  | [(k, a)] => quote k ++ ':' :: chars a
  | (k, a) :: rest => quote k ++ ':' :: chars a ++ ',' :: memberChars rest

end

def render (j : Json) : String := String.ofList (chars j)

def newLine (depth : Nat) : List Char := '\n' :: List.replicate (2 * depth) ' '

mutual

/-- One item or member a line, two blanks deeper than what holds it. -/
def prettyChars (depth : Nat) : Json → List Char
  | .arr (a :: rest) => '[' :: prettyItems (depth + 1) (a :: rest) ++ newLine depth ++ [']']
  | .obj (m :: rest) => '\x7b' :: prettyMembers (depth + 1) (m :: rest) ++ newLine depth ++ ['\x7d']
  | j => chars j

def prettyItems (depth : Nat) : List Json → List Char
  | [] => []
  | [a] => newLine depth ++ prettyChars depth a
  | a :: rest => newLine depth ++ prettyChars depth a ++ ',' :: prettyItems depth rest

def prettyMembers (depth : Nat) : List (String × Json) → List Char
  | [] => []
  | [(k, a)] => newLine depth ++ quote k ++ ':' :: ' ' :: prettyChars depth a
  | (k, a) :: rest =>
    newLine depth ++ quote k ++ ':' :: ' ' :: prettyChars depth a ++ ',' :: prettyMembers depth rest

end

def pretty (j : Json) : String := String.ofList (prettyChars 0 j)

end Json
end Handover
