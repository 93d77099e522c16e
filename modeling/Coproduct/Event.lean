import Coproduct.Error
/-!
# Events

What the library reports while it works, apart from its answers. A computation that may report is
a `Logged` value: the answer and the events in the order in which they were raised.
-/

namespace Coproduct

/-! ## §1  Events -/

/-- Why a foreign value is not taken for a member, in the order in which it is checked. -/
inductive Rejection where
  | undeclared
  | notObject
  | tagMismatch
  | payload
deriving DecidableEq

def Rejection.text : Rejection → String
  | .undeclared => "undeclared tag"
  | .notObject => "not an object"
  | .tagMismatch => "tag mismatch"
  | .payload => "payload"

inductive Level where
  | trace
  | debug
deriving DecidableEq

inductive Event where
  | populated (sum tag : String)
  | mapRejected (sum : String) (cause : SumError)
  | wildcardUsed (sum tag : String)
  | nothingMatched (sum tag : String)
  | refinementRejected (reason : Rejection) (sum tag : String)

namespace Event

def level : Event → Level
  | .populated _ _ | .wildcardUsed _ _ | .refinementRejected _ _ _ => .trace
  | .mapRejected _ _ | .nothingMatched _ _ => .debug

def message : Event → String
  | .populated _ _ => "populating constructor cache"
  | .mapRejected _ _ => "rejected handler map"
  | .wildcardUsed _ _ => "falling back to wildcard"
  | .nothingMatched _ _ => "no arm and no wildcard"
  | .refinementRejected reason _ _ => "refinement rejected: " ++ reason.text

def sum : Event → String
  | .populated sum _ | .mapRejected sum _ | .wildcardUsed sum _ | .nothingMatched sum _
  | .refinementRejected _ sum _ => sum

/-- The tag that an event is about; a handler map that is rejected is about none. -/
def tag? : Event → Option String
  | .populated _ tag | .wildcardUsed _ tag | .nothingMatched _ tag
  | .refinementRejected _ _ tag => some tag
  | .mapRejected _ _ => none

def errorText? : Event → Option String
  | .mapRejected _ cause => some cause.message
  | _ => none

end Event

/-! ## §2  Logged values -/

/-- A value and the events raised on the way to it, in order. -/
structure Logged (α : Type) where
  value : α
  events : List Event

namespace Logged

instance : Monad Logged where
  pure a := ⟨a, []⟩
  bind x f := ⟨(f x.value).value, x.events ++ (f x.value).events⟩

def emit (e : Event) : Logged Unit := ⟨(), [e]⟩

end Logged

end Coproduct
