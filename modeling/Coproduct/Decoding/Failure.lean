import Coproduct.Json.Outline
import Coproduct.Tag
/-!
# Failures of decoding

What can be wrong with a value that is decoded as some type, and the message for each. A failure
names what was expected, and what was found by its kind, with the scalar itself spelled out.
-/

namespace Coproduct

open Json (Value Number)

/-- What was found where something else was expected. -/
inductive Found where
  | null
  | bool (b : Bool)
  | number (n : Number)
  | string (s : String)
  | sequence
  | map

namespace Found

def ofValue : Value → Found
  | .null => .null
  | .bool b => .bool b
  | .number n => .number n
  | .string s => .string s
  | .array _ => .sequence
  | .object _ => .map

def text : Found → String
  | .null => "null"
  | .bool b => "boolean `" ++ (if b then "true" else "false") ++ "`"
  | .number (.int n fits) => "integer `" ++ String.ofList (Number.int n fits).chars ++ "`"
  | .number (.double x) => "floating point `" ++ x.text .double ++ "`"
  | .string s => "string " ++ quoted s
  | .sequence => "sequence"
  | .map => "map"

end Found

inductive DecodeError where
  | wrongType (found : Found) (expected : String)
  | wrongValue (found : Found) (expected : String)
  | wrongLength (length : Nat) (expected : String)
  | missingField (name : String)
  | tag (cause : TagError)

namespace DecodeError

def message : DecodeError → String
  | .wrongType found expected => "invalid type: " ++ found.text ++ ", expected " ++ expected
  | .wrongValue found expected => "invalid value: " ++ found.text ++ ", expected " ++ expected
  | .wrongLength length expected =>
    "invalid length " ++ String.ofList (Digits.ofNat length) ++ ", expected " ++ expected
  | .missingField name => "missing field `" ++ name ++ "`"
  | .tag cause => cause.message

end DecodeError

end Coproduct
