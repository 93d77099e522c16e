import Coproduct.Json.Value
/-!
# Literals

Plain values that every payload type of a constructor converts from. The conversion cannot fail: a
floating-point number that is not finite becomes null.
-/

namespace Coproduct

open Json (Value FitsWord)

/-- A plain value. Floating-point numbers that are not finite are `none`. -/
inductive Literal where
  | unit
  | json (v : Value)
  | bool (b : Bool)
  | integer (n : Int) (fits : FitsWord n)
  | double (x : Option Double)
  | single (x : Option Single)
  | string (s : String)
  | optional (x : Option (Option Double))
  | doubles (xs : List (Option Double))
  | strings (texts : List String)

namespace Literal

variable {α : Type}

def ofOption (convert : α → Value) : Option α → Value
  | none => .null
  | some x => convert x

def ofList (convert : α → Value) (xs : List α) : Value := .array (xs.map convert)

def value : Literal → Value
  | .unit => .null
  | .json v => v
  | .bool b => .bool b
  | .integer n fits => .number (.int n fits)
  | .double x => .ofDouble x
  | .single x => .ofDouble (x.bind Finite.convert?)
  | .string s => .string s
  | .optional x => ofOption Value.ofDouble x
  | .doubles xs => ofList Value.ofDouble xs
  | .strings texts => ofList Value.string texts

end Literal

end Coproduct
