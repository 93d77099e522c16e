import Coproduct.Json.Number
/-!
# Documents

The values of a document. Objects are lists of fields; the ones this library builds have their
keys in ascending order, each key once (`Value.Canonical`), so that an object is its set of fields.
Strings are compared by code points, which is the order of their encoded bytes.
-/

namespace Coproduct.Json

/-! ## §1  Values -/

inductive Value where
  | null
  | bool (b : Bool)
  | number (n : Number)
  | string (s : String)
  | array (items : List Value)
  | object (fields : List (String × Value))
deriving Inhabited

abbrev Fields := List (String × Value)

namespace Fields

/-- Sets a field: the key keeps its ascending place, and the last value wins. -/
def insert (key : String) (v : Value) : Fields → Fields
  | [] => [(key, v)]
  | (k, w) :: rest =>
    if key < k then (key, v) :: (k, w) :: rest
    else if key = k then (key, v) :: rest
    else (k, w) :: insert key v rest

/-- The fields in ascending order of keys; of a repeated key the last value is kept. -/
def ofList (fields : List (String × Value)) : Fields :=
  fields.foldl (fun acc (k, v) => insert k v acc) []

def Ascending (fields : Fields) : Prop := fields.Pairwise (fun a b => a.1 < b.1)

end Fields

namespace Value

def ofFields (fields : List (String × Value)) : Value := .object (Fields.ofList fields)

def field? (key : String) : Value → Option Value
  | .object fields => fields.lookup key
  | _ => none

/-- The number of an integer; integers outside 64 bits have none. -/
def ofInt? (n : Int) : Option Value := (Number.ofInt? n).map .number

def ofDouble : Option Double → Value
  | some x => .number (.double x)
  | none => .null

/-! ## §2  Equality -/

mutual

/-- Equality of values: numbers by `Number.same`, arrays in order, objects field by field. -/
def same : Value → Value → Bool
  | .null, .null => true
  | .bool a, .bool b => a == b
  | .number m, .number n => m.same n
  | .string s, .string t => s == t
  | .array xs, .array ys => sameItems xs ys
  | .object fs, .object gs => sameFields fs gs
  | _, _ => false

def sameItems : List Value → List Value → Bool
  | [], [] => true
  | x :: xs, y :: ys => same x y && sameItems xs ys
  | _, _ => false

def sameFields : List (String × Value) → List (String × Value) → Bool
  | [], [] => true
  | (k, x) :: fs, (l, y) :: gs => k == l && same x y && sameFields fs gs
  | _, _ => false

end

/-! ## §3  Depth and canonical form -/

mutual

/-- How deeply arrays and objects are nested: a scalar has depth zero, and a container, even an
empty one, is one deeper than what it holds. -/
def depth : Value → Nat
  | .array items => depthItems items + 1
  | .object fields => depthFields fields + 1
  | _ => 0

def depthItems : List Value → Nat
  | [] => 0
  | v :: rest => max (depth v) (depthItems rest)

def depthFields : List (String × Value) → Nat
  | [] => 0
  | (_, v) :: rest => max (depth v) (depthFields rest)

end

mutual

/-- Every object in the value has its keys in ascending order, each key once. -/
def Canonical : Value → Prop
  | .array items => CanonicalItems items
  | .object fields => Fields.Ascending fields ∧ CanonicalFields fields
  | _ => True

def CanonicalItems : List Value → Prop
  | [] => True
  | v :: rest => Canonical v ∧ CanonicalItems rest

def CanonicalFields : List (String × Value) → Prop
  | [] => True
  | (_, v) :: rest => Canonical v ∧ CanonicalFields rest

end

end Value

end Coproduct.Json
