import MiryadCore.Json.Text
import Mathlib.Tactic.Ring

/-!
# Reading a JSON text

The grammar of JSON, read from left to right.  The reader of a value is given
fuel, of which the length of the text is enough.  An integer that fits is a
number of its own, and any other number is known by its literal.  Unlike
`serde_json`, the reader keeps the literal of a float as it is, which that one
may round, and has no limit to the depth of a value, where that one stops at 128.
-/

namespace MiryadCore.Json

/-- A character that a number may have. -/
def isNumeric (char : Char) : Bool :=
  char.isDigit || char = '-' || char = '+' || char = '.' || char = 'e' ||
    char = 'E'

def isExponent : List Char → Bool
  | [] => true
  | mark :: rest =>
      (mark = 'e' || mark = 'E') &&
        let digits :=
          match rest with
          | '+' :: digits => digits
          | '-' :: digits => digits
          | digits => digits
        digits ≠ [] && digits.all Char.isDigit

def isFraction : List Char → Bool
  | '.' :: rest =>
      rest.takeWhile Char.isDigit ≠ [] &&
        isExponent (rest.dropWhile Char.isDigit)
  | rest => isExponent rest

def isUnsigned (literal : List Char) : Bool :=
  let whole := literal.takeWhile Char.isDigit
  whole ≠ [] && (whole.length = 1 || whole.head? ≠ some '0') &&
    isFraction (literal.dropWhile Char.isDigit)

def isLiteral : List Char → Bool
  | '-' :: literal => isUnsigned literal
  | literal => isUnsigned literal

/-- The number of a literal. -/
def numberOf (literal : List Char) : Number :=
  match literal with
  | '-' :: digits =>
      if digits.all Char.isDigit ∧ Nat.ofDigitChars 10 digits 0 ≠ 0 ∧
          Nat.ofDigitChars 10 digits 0 ≤ 2 ^ 63 then
        .negInt (Int64.ofInt (-(Nat.ofDigitChars 10 digits 0 : ℤ)))
      else .float (String.ofList literal)
  | digits =>
      if digits.all Char.isDigit ∧ Nat.ofDigitChars 10 digits 0 < 2 ^ 64 then
        .posInt (UInt64.ofNat (Nat.ofDigitChars 10 digits 0))
      else .float (String.ofList literal)

def readNumber (text : List Char) : Option (Number × List Char) :=
  let literal := text.takeWhile isNumeric
  if isLiteral literal then
    some (numberOf literal, text.dropWhile isNumeric)
  else none

def hexValue (char : Char) : Option ℕ :=
  if char.isDigit then some (char.toNat - '0'.toNat)
  else if 'a' ≤ char ∧ char ≤ 'f' then some (char.toNat - 'a'.toNat + 10)
  else if 'A' ≤ char ∧ char ≤ 'F' then some (char.toNat - 'A'.toNat + 10)
  else none

/-- The code unit of four digits. -/
def codeUnit (a b c d : Char) : Option ℕ := do
  let a ← hexValue a
  let b ← hexValue b
  let c ← hexValue c
  let d ← hexValue d
  return ((a * 16 + b) * 16 + c) * 16 + d

def unescape : Char → Option Char
  | '"' => some '"'
  | '\\' => some '\\'
  | '/' => some '/'
  | 'b' => some (Char.ofNat 0x08)
  | 't' => some (Char.ofNat 0x09)
  | 'n' => some (Char.ofNat 0x0A)
  | 'f' => some (Char.ofNat 0x0C)
  | 'r' => some (Char.ofNat 0x0D)
  | _ => none

def push (char : Char) :
    Option (List Char × List Char) → Option (List Char × List Char) :=
  Option.map fun (read, rest) => (char :: read, rest)

/-- The characters up to the closing quotation mark. -/
def readString : List Char → Option (List Char × List Char)
  | [] => none
  | char :: text =>
      if char = '"' then some ([], text)
      else if char = '\\' then
        match text with
        | 'u' :: a :: b :: c :: d :: rest =>
            match codeUnit a b c d with
            | none => none
            | some unit =>
                if 0xD800 ≤ unit ∧ unit < 0xDC00 then
                  match rest with
                  | '\\' :: 'u' :: a' :: b' :: c' :: d' :: rest =>
                      match codeUnit a' b' c' d' with
                      | none => none
                      | some low =>
                          if 0xDC00 ≤ low ∧ low < 0xE000 then
                            push (Char.ofNat (0x10000 +
                              (unit - 0xD800) * 0x400 + (low - 0xDC00)))
                              (readString rest)
                          else none
                  | _ => none
                else if 0xDC00 ≤ unit ∧ unit < 0xE000 then none
                else push (Char.ofNat unit) (readString rest)
        | short :: rest =>
            match unescape short with
            | none => none
            | some char => push char (readString rest)
        | [] => none
      else if char.toNat < 0x20 then none
      else push char (readString text)

def isSpace (char : Char) : Bool :=
  char = ' ' || char = '\t' || char = '\n' || char = '\r'

def skip (text : List Char) : List Char :=
  text.dropWhile isSpace

/-- A word of the grammar. -/
def readWord (word : List Char) (value : Value) (text : List Char) :
    Option (Value × List Char) :=
  if word.isPrefixOf text then some (value, text.drop word.length) else none

/-- A member in a map: a later one replaces an earlier one. -/
def insertMember (key : String) (item : Value) : Members → Members
  | [] => [(key, item)]
  | (other, value) :: members =>
      if key < other then (key, item) :: (other, value) :: members
      else if key = other then (key, item) :: members
      else (other, value) :: insertMember key item members

def collect (members : Members) : Members :=
  members.foldl (fun map member => insertMember member.1 member.2 map) []

mutual

def readValue : ℕ → List Char → Option (Value × List Char)
  | 0, _ => none
  | fuel + 1, text =>
      match skip text with
      | [] => none
      | char :: rest =>
          if char = 'n' then readWord ['u', 'l', 'l'] .null rest
          else if char = 't' then readWord ['r', 'u', 'e'] (.bool true) rest
          else if char = 'f' then
            readWord ['a', 'l', 's', 'e'] (.bool false) rest
          else if char = '"' then
            (readString rest).map fun (read, rest) =>
              (.string (String.ofList read), rest)
          else if char = '[' then
            match skip rest with
            | ']' :: rest => some (.array [], rest)
            | _ => (readItems fuel rest).map fun (items, rest) =>
                (.array items, rest)
          else if char = '{' then
            match skip rest with
            | '}' :: rest => some (.object [], rest)
            | _ => (readMembers fuel rest).map fun (members, rest) =>
                (.object (collect members), rest)
          else (readNumber (char :: rest)).map fun (number, rest) =>
            (.number number, rest)

def readItems : ℕ → List Char → Option (List Value × List Char)
  | 0, _ => none
  | fuel + 1, text =>
      match readValue fuel text with
      | none => none
      | some (item, rest) =>
          match skip rest with
          | ',' :: rest => (readItems fuel rest).map fun (items, rest) =>
              (item :: items, rest)
          | ']' :: rest => some ([item], rest)
          | _ => none

def readMembers : ℕ → List Char → Option (Members × List Char)
  | 0, _ => none
  | fuel + 1, text =>
      match skip text with
      | '"' :: rest =>
          match readString rest with
          | none => none
          | some (key, rest) =>
              match skip rest with
              | ':' :: rest =>
                  match readValue fuel rest with
                  | none => none
                  | some (item, rest) =>
                      match skip rest with
                      | ',' :: rest =>
                          (readMembers fuel rest).map fun (members, rest) =>
                            ((String.ofList key, item) :: members, rest)
                      | '}' :: rest =>
                          some ([(String.ofList key, item)], rest)
                      | _ => none
              | _ => none
      | _ => none

end

/-- The value of a text, with nothing after it. -/
def parse (text : List Char) : Option Value :=
  match readValue (2 * text.length + 2) text with
  | some (value, rest) => if skip rest = [] then some value else none
  | none => none

example : parse "[1, \x7b\"a\": \"\\u00e9\"\x7d, -2.5e3]".toList =
    some (.array [.number (.posInt 1), .object [("a", .string "é")],
      .number (.float "-2.5e3")]) := by
  decide +kernel

end MiryadCore.Json
