import Coproduct.Json.Value
import Coproduct.Text.Quoted
/-!
# Outlines

A value spelled out by kind, on one line, for messages to a reader: every scalar names its kind,
and strings and keys are quoted.
-/

namespace Coproduct.Json

namespace Outline

mutual

def value : Value → String
  | .null => "Null"
  | .bool b => "Bool(" ++ (if b then "true" else "false") ++ ")"
  | .number n => "Number(" ++ String.ofList n.chars ++ ")"
  | .string s => "String(" ++ quoted s ++ ")"
  | .array items => "Array [" ++ ", ".intercalate (all items) ++ "]"
  | .object fields => "Object \x7b" ++ ", ".intercalate (allFields fields) ++ "\x7d"

def all : List Value → List String
  | [] => []
  | v :: rest => value v :: all rest

def allFields : List (String × Value) → List String
  | [] => []
  | (k, v) :: rest => (quoted k ++ ": " ++ value v) :: allFields rest

end

end Outline

def Value.outline (v : Value) : String := Outline.value v

end Coproduct.Json
