import Coproduct.Member
import Coproduct.Text.Place
/-!
# Encoding

What a typed payload consists of, before it is a value: `Content` keeps the distinctions that
types make and documents do not, such as a wide integer, a byte string or a map whose keys are not
strings. Encoding maps content to a value; the first thing that has no value, in order, is the
error.

§1 content · §2 errors · §3 keys that need no value · §4 encoding.
-/

namespace Coproduct

open Json (Value Number)

/-! ## §1  Content -/

/-- A typed payload. Floating-point content that is not finite is `none`. -/
inductive Content where
  | null
  | present (content : Content)
  | wrapped (content : Content)
  | bool (b : Bool)
  | integer (n : Int)
  | double (x : Option Double)
  | single (x : Option Single)
  | char (c : Char)
  | string (s : String)
  | bytes (bytes : List UInt8)
  | sequence (items : List Content)
  | map (entries : List (Content × Content))
  | record (fields : List (String × Content))
  | unitVariant (name : String)
  | variant (name : String) (content : Content)
  | json (v : Value)
  | tag (name : String)
  | pair (tag : String) (payload : Value)
  | member (sum : Declaration) (tag : String) (payload : Content)
  | failure (message : String)

/-! ## §2  Errors -/

def payloadMessage (sum tag cause : String) : String :=
  "payload of \"" ++ tag ++ "\" in sum type `" ++ sum ++ "` has an unexpected shape: " ++ cause

inductive EncodeError where
  | numberOutOfRange
  | keyNotFinite
  | keyNotString
  | tag (cause : TagError)
  | payload (sum tag : String) (cause : EncodeError)
  | custom (message : String)
deriving DecidableEq

/-- The text of the error. Texts that come from elsewhere, be it from the content itself or from a
member inside it, are taken over as texts of failures, so they may speak of a place. -/
def EncodeError.message : EncodeError → String
  | .numberOutOfRange => "number out of range"
  | .keyNotFinite => "float key must be finite (got NaN or +/-inf)"
  | .keyNotString => "key must be a string"
  | .tag cause => failureText cause.message
  | .payload sum name cause => failureText (payloadMessage sum name cause.message)
  | .custom text => failureText text

/-! ## §3  Keys that need no value -/

namespace Content

def finiteKey {F : BinaryFormat} (layout : DecimalLayout) :
    Option (Finite F) → Except EncodeError String
  | some x => .ok (x.text layout)
  | none => .error .keyNotFinite

def keyOfValue : Value → Except EncodeError String
  | .string s => .ok s
  | .bool b => .ok (if b then "true" else "false")
  | .number n => .ok (String.ofList n.chars)
  | .null | .array _ | .object _ => .error .keyNotString

def tagOf (name : String) : Except EncodeError Tag := (Tag.ofString name).mapError .tag

/-! ## §4  Encoding -/

mutual

def encode : Content → Except EncodeError Value
  | .null => .ok .null
  | .present content => encode content
  | .wrapped content => encode content
  | .bool b => .ok (.bool b)
  | .integer n =>
    match Value.ofInt? n with
    | some v => .ok v
    | none => .error .numberOutOfRange
  | .double x => .ok (.ofDouble x)
  | .single x => .ok (.ofDouble (x.bind Finite.convert?))
  | .char c => .ok (.string (String.singleton c))
  | .string s => .ok (.string s)
  | .bytes bs => .ok (.array (bs.filterMap fun b => Value.ofInt? b.toNat))
  | .sequence items => return .array (← encodeItems items)
  | .map entries => return .ofFields (← encodeEntries entries)
  | .record fields => return .ofFields (← encodeFields fields)
  | .unitVariant name => .ok (.string name)
  | .variant name content => return .object [(name, ← encode content)]
  | .json v => .ok v
  | .tag name => return .string (← tagOf name).name
  | .pair name payload => return Pair.toValue ⟨← tagOf name, payload⟩
  | .member sum name payload =>
    match sum.declare name with
    | .error cause => .error (.tag cause)
    | .ok t =>
      match encode payload with
      | .error cause => .error (.payload sum.name t.name cause)
      | .ok v => .ok (Pair.toValue ⟨t, v⟩)
  | .failure message => .error (.custom message)

def encodeItems : List Content → Except EncodeError (List Value)
  | [] => .ok []
  | c :: rest => return (← encode c) :: (← encodeItems rest)

/-- The fields of a map's entries, in order: a key before its value. -/
def encodeEntries : List (Content × Content) → Except EncodeError (List (String × Value))
  | [] => .ok []
  | (k, c) :: rest => do
    let key ← encodeKey k
    let v ← encode c
    return (key, v) :: (← encodeEntries rest)

def encodeFields : List (String × Content) → Except EncodeError (List (String × Value))
  | [] => .ok []
  | (name, c) :: rest => return (name, ← encode c) :: (← encodeFields rest)

/-- The key that content is written as. Only content with a text of its own can be a key; a pair
and a member are built before they are refused. -/
def encodeKey : Content → Except EncodeError String
  | .wrapped content => encodeKey content
  | .bool b => .ok (if b then "true" else "false")
  | .integer n => .ok (String.ofList (Digits.ofInt n))
  | .double x => finiteKey .double x
  | .single x => finiteKey .single x
  | .char c => .ok (String.singleton c)
  | .string s => .ok s
  | .unitVariant name => .ok name
  | .json v => keyOfValue v
  | .tag name => return (← tagOf name).name
  | .pair name _ => do
    let _ ← tagOf name
    .error .keyNotString
  | .member sum name payload =>
    match sum.declare name with
    | .error cause => .error (.tag cause)
    | .ok t =>
      match encode payload with
      | .error cause => .error (.payload sum.name t.name cause)
      | .ok _ => .error .keyNotString
  | .failure message => .error (.custom message)
  | .null | .present _ | .bytes _ | .sequence _ | .map _ | .record _ | .variant _ _ =>
    .error .keyNotString

end

end Content

end Coproduct
