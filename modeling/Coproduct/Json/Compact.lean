import Coproduct.Json.Value
import Coproduct.Text.Hex
/-!
# Compact text

A value on one line without blanks. In strings only the quote, the backslash and the control
characters are escaped; everything else is written as it is.
-/

namespace Coproduct.Json

namespace Compact

/-- Four lower-case hexadecimal digits. -/
def fourDigits (n : Nat) : List Char :=
  let digits := Hex.ofNat n
  List.replicate (4 - digits.length) '0' ++ digits

def char (c : Char) : List Char :=
  if c = '"' then ['\\', '"']
  else if c = '\\' then ['\\', '\\']
  else if c = '\x08' then ['\\', 'b']
  else if c = '\t' then ['\\', 't']
  else if c = '\n' then ['\\', 'n']
  else if c = '\x0c' then ['\\', 'f']
  else if c = '\r' then ['\\', 'r']
  else if c.toNat < 0x20 then '\\' :: 'u' :: fourDigits c.toNat
  else [c]

def string (s : String) : List Char := '"' :: (s.toList.flatMap char ++ ['"'])

mutual

def value : Value → List Char
  | .null => "null".toList
  | .bool b => (if b then "true" else "false").toList
  | .number n => n.chars
  | .string s => string s
  | .array items => '[' :: (first items ++ [']'])
  | .object fields => '\x7b' :: (firstField fields ++ ['\x7d'])

/-- The items of an array from the first on. -/
def first : List Value → List Char
  | [] => []
  | v :: rest => value v ++ others rest

/-- The items after the first, each behind a comma. -/
def others : List Value → List Char
  | [] => []
  | v :: rest => ',' :: (value v ++ others rest)

def firstField : List (String × Value) → List Char
  | [] => []
  | (k, v) :: rest => string k ++ ':' :: (value v ++ otherFields rest)

def otherFields : List (String × Value) → List Char
  | [] => []
  | (k, v) :: rest => ',' :: (string k ++ ':' :: (value v ++ otherFields rest))

end

end Compact

def Value.text (v : Value) : String := String.ofList (Compact.value v)

end Coproduct.Json
