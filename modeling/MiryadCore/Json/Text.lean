import MiryadCore.Json.Value
import Mathlib.Algebra.GroupWithZero.Nat
import Mathlib.Data.List.Sort

/-!
# JSON texts

The compact text of a value, as `serde_json` prints it, and the canonical text
of the write journal, in which the members of an object are sorted again.
Texts are lists of characters.
-/

namespace MiryadCore

def hexDigit (n : ℕ) : Char :=
  if n < 10 then Char.ofNat ('0'.toNat + n) else Char.ofNat ('a'.toNat + n - 10)

/-- A character inside a string. -/
def escape (char : Char) : List Char :=
  if char = '"' then ['\\', '"']
  else if char = '\\' then ['\\', '\\']
  else if char.toNat = 0x08 then ['\\', 'b']
  else if char.toNat = 0x09 then ['\\', 't']
  else if char.toNat = 0x0A then ['\\', 'n']
  else if char.toNat = 0x0C then ['\\', 'f']
  else if char.toNat = 0x0D then ['\\', 'r']
  else if char.toNat < 0x20 then
    ['\\', 'u', '0', '0', hexDigit (char.toNat / 16), hexDigit (char.toNat % 16)]
  else [char]

def quote (text : String) : List Char :=
  '"' :: text.toList.flatMap escape ++ ['"']

def Number.text : Number → List Char
  | .posInt value => Nat.toDigits 10 value.toNat
  | .negInt value =>
      if value.toInt < 0 then '-' :: Nat.toDigits 10 value.toInt.natAbs
      else Nat.toDigits 10 value.toInt.natAbs
  | .float text => text.toList

/-- Items between brackets, with commas. -/
def bracketed (left right : Char) (items : List (List Char)) : List Char :=
  left :: (items.intersperse [',']).flatten ++ [right]

namespace Value

mutual

/-- `serde_json::to_string`. -/
def text : Value → List Char
  | .null => ['n', 'u', 'l', 'l']
  | .bool true => ['t', 'r', 'u', 'e']
  | .bool false => ['f', 'a', 'l', 's', 'e']
  | .number value => value.text
  | .string value => quote value
  | .array items => bracketed '[' ']' (textItems items)
  | .object members => bracketed '{' '}' (textMembers members)

def textItems : List Value → List (List Char)
  | [] => []
  | item :: items => text item :: textItems items

def textMembers : List (String × Value) → List (List Char)
  | [] => []
  | (key, item) :: members =>
      (quote key ++ ':' :: text item) :: textMembers members

end

mutual

/-- `canonical`: the keys of an object are in order, whatever the order in
which the map lists them. -/
def canonical : Value → List Char
  | .object members =>
      let sorted := (canonicalMembers members).insertionSort
        fun left right => left.1 ≤ right.1
      bracketed '{' '}' (sorted.map fun member =>
        quote member.1 ++ ':' :: member.2)
  | .array items => bracketed '[' ']' (canonicalItems items)
  | .null => text .null
  | .bool value => text (.bool value)
  | .number value => text (.number value)
  | .string value => text (.string value)

def canonicalItems : List Value → List (List Char)
  | [] => []
  | item :: items => canonical item :: canonicalItems items

def canonicalMembers : List (String × Value) → List (String × List Char)
  | [] => []
  | (key, item) :: members => (key, canonical item) :: canonicalMembers members

end

/-- The number of bytes of a text in UTF-8. -/
def textBytes (text : List Char) : ℕ :=
  (text.map Char.utf8Size).sum

end Value

end MiryadCore
