import Coproduct.Decoding.Failure
import Coproduct.Encoding.Content
/-!
# Errors of sum types

Everything that can go wrong with tags, handler maps and payloads, with the message for each.
Tags and names stand in messages as they are.
-/

namespace Coproduct

/-- Why a payload does not fit: it does not decode as the type that an arm asks for, or typed
content has no value. -/
inductive PayloadError where
  | decode (cause : DecodeError)
  | encode (cause : EncodeError)

def PayloadError.message : PayloadError → String
  | .decode cause => cause.message
  | .encode cause => cause.message

/-- The errors of sum types. Every one but an empty tag names its sum type. -/
inductive SumError where
  | unmatched (sum tag : String)
  | tag (cause : TagError)
  | nonExhaustive (sum : String) (missing : List String)
  | openWithoutWildcard (sum : String)
  | duplicateArm (sum tag : String)
  | payload (sum tag : String) (cause : PayloadError)

namespace SumError

def tag? : SumError → Option String
  | .unmatched _ name => some name
  | .tag cause => cause.tag?
  | .nonExhaustive _ _ | .openWithoutWildcard _ => none
  | .duplicateArm _ name => some name
  | .payload _ name _ => some name

def message : SumError → String
  | .unmatched sum name =>
    "Failed to pattern match against tag \"" ++ name ++ "\" of sum type `" ++ sum ++ "`."
  | .tag cause => cause.message
  | .nonExhaustive sum missing =>
    "non-exhaustive match on sum type `" ++ sum ++ "`: no arm for " ++ quotedList missing ++
      " and no wildcard"
  | .openWithoutWildcard sum => "match on open sum type `" ++ sum ++ "` requires a wildcard"
  | .duplicateArm sum name =>
    "duplicate arm for tag \"" ++ name ++ "\" in match on sum type `" ++ sum ++ "`"
  | .payload sum name cause => payloadMessage sum name cause.message

end SumError

end Coproduct
