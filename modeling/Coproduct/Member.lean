import Coproduct.Declaration
import Coproduct.Json.Compact
import Coproduct.Json.Outline
/-!
# Members and pairs

A member of a sum type is a tag with a payload. It travels as a pair, which is a tag with a payload
of no particular sum type, or in its raw form, an object that other programs build and read.
Members carry no proof of being declared: that every one of them is, is a property of the
operations that build them (`Member.DeclaredBy`).
-/

namespace Coproduct

open Json (Value)

/-- A tag with a payload, as a value of some sum type. -/
structure Member where
  tag : Tag
  payload : Value

/-- A tag with a payload, of no sum type. -/
structure Pair where
  tag : Tag
  payload : Value

namespace Pair

def toValue (p : Pair) : Value := .array [.string p.tag.name, p.payload]

def text (p : Pair) : String := p.toValue.text

def outline (p : Pair) : String :=
  "Serialized(" ++ quoted p.tag.name ++ ", " ++ p.payload.outline ++ ")"

def toProd (p : Pair) : Tag × Value := (p.tag, p.payload)

def ofProd (p : Tag × Value) : Pair := ⟨p.1, p.2⟩

def same (p q : Pair) : Bool := decide (p.tag = q.tag) && p.payload.same q.payload

end Pair

namespace Member

def DeclaredBy (S : Declaration) (m : Member) : Prop := S.contains m.tag.name = true

def same (m n : Member) : Bool := decide (m.tag = n.tag) && m.payload.same n.payload

def serialize (m : Member) : Pair := ⟨m.tag, m.payload⟩

def text (m : Member) : String := (Json.Value.array [.string m.tag.name, m.payload]).text

def tagKey : String := "_tag"

def payloadKey : String := "_value"

def raw (m : Member) : Value :=
  .ofFields [(tagKey, .string m.tag.name), (payloadKey, m.payload)]

def outline (S : Declaration) (m : Member) : String :=
  S.name ++ "::" ++ m.tag.name ++ "(" ++ m.payload.text ++ ")"

end Member

end Coproduct
