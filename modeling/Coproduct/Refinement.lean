import Coproduct.Event
/-!
# Refinements

A refinement asks whether a foreign value is the raw form of a member of a sum type with one given
tag and an acceptable payload. The checks run in a fixed order and stop at the first that fails:
the tag is declared, the value is an object, its tag field is the tag, its payload field is there
and the predicate accepts it. Fields besides these two do not matter.

The checks are written for a predicate with effects of its own, so that one can see when and on
what the predicate is consulted; `payload` runs them with a plain predicate.
-/

namespace Coproduct

open Json (Value)

structure Refinement where
  sum : Declaration
  tag : String
  accepts : Value → Bool

namespace Refinement

/-! ## §1  The checks -/

/-- The payload of a foreign value, by the checks in their order. -/
def payloadOf {m : Type → Type} [Monad m] (S : Declaration) (tag : String)
    (accepts : Value → m Bool) (foreign : Value) : m (Except Rejection Value) :=
  if !S.contains tag then return .error .undeclared
  else
    match foreign with
    | .object fields =>
      match fields.lookup Member.tagKey with
      | some (.string name) =>
        if name != tag then return .error .tagMismatch
        else
          match fields.lookup Member.payloadKey with
          -- An absent payload is refused like one that the predicate refuses.
          | none => return .error .payload
          | some v => do
            if ← accepts v then return .ok v else return .error .payload
      | _ => return .error .tagMismatch
    | _ => return .error .notObject

def payload (r : Refinement) (foreign : Value) : Logged (Option Value) :=
  match (payloadOf r.sum r.tag (fun v => (pure (r.accepts v) : Id Bool)) foreign).run with
  | .ok v => pure (some v)
  | .error reason => do
    Logged.emit (.refinementRejected reason r.sum.name r.tag)
    return none

/-- The payloads on which the predicate is consulted, in order. -/
def consulted (r : Refinement) (foreign : Value) : List Value :=
  let watched : Value → StateM (List Value) Bool := fun v => do
    modify (· ++ [v])
    return r.accepts v
  ((payloadOf r.sum r.tag watched foreign).run []).2

/-! ## §2  Tests and narrowings -/

/-- Whether a foreign value is a member's raw form. -/
def test (r : Refinement) (foreign : Value) : Logged Bool := do
  return (← r.payload foreign).isSome

/-- The member whose raw form a foreign value is. The empty name is no tag, even where a sum type
lists it. -/
def narrow (r : Refinement) (foreign : Value) : Logged (Option Member) := do
  match ← r.payload foreign with
  | none => return none
  | some v =>
    match Tag.ofString r.tag with
    | .ok tag => return some ⟨tag, v⟩
    | .error _ => return none

def outline (r : Refinement) : String :=
  "Refinement \x7b sum: " ++ quoted r.sum.name ++ ", tag: " ++ quoted r.tag ++ ", .. \x7d"

end Refinement

end Coproduct
