import Coproduct.Decoding.Failure
import Coproduct.Encoding.Content
/-!
# Codecs

How the values of a type are written as payloads and read back. Decoding looks at a whole value
and reports the first thing that does not fit; the kinds of scalar are never mixed, so a double is
no integer even where it is whole.

§1 codecs · §2 scalars · §3 containers · §4 tags, pairs and members.
-/

namespace Coproduct

open Json (Value Number)

/-! ## §1  Codecs -/

/-- A type of payloads: what its values consist of, and how a value is decoded. -/
structure Codec (α : Type) where
  content : α → Content
  decode : Value → Except DecodeError α

namespace Codec

def encode {α : Type} (codec : Codec α) (x : α) : Except EncodeError Value :=
  (codec.content x).encode

def wrongType {α : Type} (v : Value) (expected : String) : Except DecodeError α :=
  .error (.wrongType (Found.ofValue v) expected)

/-! ## §2  Scalars -/

/-- An integer between two bounds. A double is of the wrong type, an integer out of bounds has the
wrong value. -/
def integerIn (least greatest : Int) (expected : String) : Value → Except DecodeError Int
  | .number (.int n fits) =>
    if least ≤ n ∧ n ≤ greatest then .ok n
    else .error (.wrongValue (.number (.int n fits)) expected)
  | v => wrongType v expected

/-- Integers of a word type, all of which lie between two bounds. -/
def integral {α : Type} (least greatest : Int) (name : String) (toInt : α → Int) (ofInt : Int → α) :
    Codec α where
  content x := .integer (toInt x)
  decode v := (integerIn least greatest name v).map ofInt

def int8 : Codec Int8 := integral (-128) 127 "i8" Int8.toInt Int8.ofInt

def int64 : Codec Int64 :=
  integral (-9223372036854775808) 9223372036854775807 "i64" Int64.toInt Int64.ofInt

def uint8 : Codec UInt8 :=
  integral 0 255 "u8" (fun n => n.toNat) fun n => UInt8.ofNat n.toNat

def uint32 : Codec UInt32 :=
  integral 0 4294967295 "u32" (fun n => n.toNat) fun n => UInt32.ofNat n.toNat

def uint64 : Codec UInt64 :=
  integral 0 18446744073709551615 "u64" (fun n => n.toNat) fun n => UInt64.ofNat n.toNat

/-- Finite doubles. Integers are converted. -/
def double : Codec Double where
  content x := .double (some x)
  decode
    | .number (.double x) => .ok x
    | .number (.int n fits) =>
      match Finite.ofInt? n with
      | some x => .ok x
      | none => .error (.wrongValue (.number (.int n fits)) "f64")
    | v => wrongType v "f64"

def bool : Codec Bool where
  content := .bool
  decode
    | .bool b => .ok b
    | v => wrongType v "a boolean"

def string : Codec String where
  content := .string
  decode
    | .string s => .ok s
    | v => wrongType v "a string"

/-- Characters: strings of one code point. -/
def char : Codec Char where
  content := .char
  decode
    | .string s =>
      match s.toList with
      | [c] => .ok c
      | _ => .error (.wrongValue (.string s) "a character")
    | v => wrongType v "a character"

def unit : Codec Unit where
  content _ := .null
  decode
    | .null => .ok ()
    | v => wrongType v "unit"

def value : Codec Value where
  content := .json
  decode v := .ok v

/-! ## §3  Containers -/

variable {α β : Type}

/-- A value that may be absent; null means absence. -/
def option (codec : Codec α) : Codec (Option α) where
  content
    | none => .null
    | some x => .present (codec.content x)
  decode
    | .null => .ok none
    | v => (codec.decode v).map some

/-- Decodes items in order, up to the first that does not fit. -/
def decodeItems (codec : Codec α) : List Value → Except DecodeError (List α)
  | [] => .ok []
  | v :: rest => return (← codec.decode v) :: (← decodeItems codec rest)

def list (codec : Codec α) : Codec (List α) where
  content xs := .sequence (xs.map codec.content)
  decode
    | .array items => decodeItems codec items
    | v => wrongType v "a sequence"

/-- Decodes fields in order of their keys, up to the first that does not fit. -/
def decodeFields (codec : Codec α) : List (String × Value) → Except DecodeError (List (String × α))
  | [] => .ok []
  | (key, v) :: rest => return (key, ← codec.decode v) :: (← decodeFields codec rest)

/-- Maps from strings, as lists of entries in ascending order of keys. -/
def map (codec : Codec α) : Codec (List (String × α)) where
  content entries := .map (entries.map fun (key, x) => (.string key, codec.content x))
  decode
    | .object fields => decodeFields codec fields
    | v => wrongType v "a map"

/-- What is said of an array with more items than its type has. -/
def tooLong (items : List Value) : Except DecodeError α :=
  .error (.wrongLength items.length "fewer elements in array")

/-- Two parts of an array, decoded in order. The second is looked for only when the first fits,
and items beyond it are noticed last. -/
def decodeTwo (first : Value → Except DecodeError α) (second : Value → Except DecodeError β)
    (expected : String) (items : List Value) : Except DecodeError (α × β) :=
  match items with
  | [] => .error (.wrongLength 0 expected)
  | v :: rest => do
    let x ← first v
    match rest with
    | [] => .error (.wrongLength 1 expected)
    | w :: rest => do
      let y ← second w
      if rest.isEmpty then .ok (x, y) else tooLong items

def tuple (first : Codec α) (second : Codec β) : Codec (α × β) where
  content p := .sequence [first.content p.1, second.content p.2]
  decode
    | .array items => decodeTwo first.decode second.decode "a tuple of size 2" items
    | v => wrongType v "a tuple of size 2"

/-- Records of one field, written as an object; other fields are ignored, and an array of one item
is taken as well. A field that may be missing comes with what it is read as in an object without
it. -/
def record (name field : String) (codec : Codec α) (absent : Option α) : Codec α where
  content x := .record [(field, codec.content x)]
  decode
    | .object fields =>
      match fields.lookup field, absent with
      | some v, _ => codec.decode v
      | none, some x => .ok x
      | none, none => .error (.missingField field)
    | .array [] => .error (.wrongLength 0 ("struct " ++ name ++ " with 1 element"))
    | .array (v :: rest) => do
      let x ← codec.decode v
      if rest.isEmpty then .ok x else tooLong (v :: rest)
    | v => wrongType v ("struct " ++ name)

/-! ## §4  Tags, pairs and members -/

def tag : Codec Tag where
  content t := .tag t.name
  decode v := do
    let name ← string.decode v
    (Tag.ofString name).mapError .tag

/-- What messages call a pair. -/
def pairName : String := "tuple struct Serialized"

def pair : Codec Pair where
  content p := .pair p.tag.name p.payload
  decode
    | .array items =>
      (decodeTwo tag.decode value.decode (pairName ++ " with 2 elements") items).map Pair.ofProd
    | v => wrongType v pairName

/-- Members of a sum type: pairs whose tag it declares. No constructor is involved. -/
def member (S : Declaration) : Codec Member where
  content m := .pair m.tag.name m.payload
  decode v := do
    let p ← pair.decode v
    let t ← (S.recognise p.tag).mapError .tag
    return ⟨t, p.payload⟩

end Codec

end Coproduct
