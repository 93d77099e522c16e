import Coproduct.Decoding.Codec
import Coproduct.Json.Reader
/-!
# Decoding from text

Tags, pairs and members are decoded from a text while it is read, from left to right, so the first
problem in the text is the one that is reported: a token of the wrong kind at once, an empty tag
right behind its string, an undeclared tag behind the complete pair, and anything behind the
document last.
-/

namespace Coproduct

open Json (Value Token Fault tokens readValue depthLimit)

/-- Why a text does not decode: it is no document, or it writes the wrong thing. -/
inductive ReadError where
  | fault (fault : Fault)
  | data (cause : DecodeError)

/-- What a token begins where a value must start; nothing where no value can. -/
def Found.ofToken : Token → Except Fault Found
  | .null => .ok .null
  | .bool b => .ok (.bool b)
  | .number n => .ok (.number n)
  | .string s => .ok (.string s)
  | .openArray => .ok .sequence
  | .openObject => .ok .map
  | .broken _ fault => .error fault
  | .closeArray | .closeObject | .comma | .colon => .error .malformed

namespace Stream

def unexpected {α : Type} (token : Token) (expected : String) : Except ReadError α :=
  match Found.ofToken token with
  | .ok found => .error (.data (.wrongType found expected))
  | .error fault => .error (.fault fault)

def readTag : List Token → Except ReadError (Tag × List Token)
  | [] => .error (.fault .truncated)
  | .string s :: rest =>
    match Tag.ofString s with
    | .ok tag => .ok (tag, rest)
    | .error cause => .error (.data (.tag cause))
  | token :: _ => unexpected token "a string"

/-- What follows the tag of a pair: the separator, the payload and the end of the array, which is
itself one of the containers that may be open. -/
def readPayload (tag : Tag) : List Token → Except ReadError (Pair × List Token)
  | [] => .error (.fault .truncated)
  | .closeArray :: _ => .error (.data (.wrongLength 1 (Codec.pairName ++ " with 2 elements")))
  | .comma :: rest =>
    match readValue (depthLimit - 1) rest with
    | .error fault => .error (.fault fault)
    | .ok (_, []) => .error (.fault .truncated)
    | .ok (v, .closeArray :: rest) => .ok (⟨tag, v⟩, rest)
    | .ok (_, _ :: _) => .error (.fault .malformed)
  | _ :: _ => .error (.fault .malformed)

def readPair : List Token → Except ReadError (Pair × List Token)
  | [] => .error (.fault .truncated)
  | .openArray :: .closeArray :: _ =>
    .error (.data (.wrongLength 0 (Codec.pairName ++ " with 2 elements")))
  | .openArray :: rest => do
    let (tag, rest) ← readTag rest
    readPayload tag rest
  | token :: _ => unexpected token Codec.pairName

/-- Nothing may follow a document. -/
def complete {α : Type} (x : α) : List Token → Except ReadError α
  | [] => .ok x
  | _ :: _ => .error (.fault .malformed)

end Stream

def Tag.ofText (text : String) : Except ReadError Tag := do
  let (tag, rest) ← Stream.readTag (tokens text)
  Stream.complete tag rest

def Pair.ofText (text : String) : Except ReadError Pair := do
  let (p, rest) ← Stream.readPair (tokens text)
  Stream.complete p rest

/-- The member of `S` that a text writes. The tag is checked before what follows the pair. -/
def Member.ofText (S : Declaration) (text : String) : Except ReadError Member := do
  let (p, rest) ← Stream.readPair (tokens text)
  match S.recognise p.tag with
  | .ok tag => Stream.complete ⟨tag, p.payload⟩ rest
  | .error cause => .error (.data (.tag cause))

end Coproduct
