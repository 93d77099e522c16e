import Coproduct.Matching.Matcher
/-!
# Widened handlers

Handlers may answer in a type of their own, as long as every answer can be converted into the
common type of the matcher. Conversion is a map over the calls, so a widened matcher is an
ordinary one: the same table, the same check, the same selection.
-/

namespace Coproduct

open Json (Value)

/-- An arm that answers by itself, in a type of its own. -/
inductive DirectArm (ρ : Type) where
  | plain (handler : Value → ρ)
  | typed (handler : Value → Except DecodeError ρ)

namespace DirectArm

variable {α β ρ : Type}

def on (handler : Value → ρ) : DirectArm ρ := .plain handler

def onAs (codec : Codec α) (handler : α → ρ) : DirectArm ρ :=
  .typed fun v => (codec.decode v).map handler

def map (into : ρ → β) : DirectArm ρ → DirectArm β
  | .plain handler => .plain fun v => into (handler v)
  | .typed handler => .typed fun v => (handler v).map into

def toArm : DirectArm β → Arm β
  | .plain handler => .on handler
  | .typed handler => .typed fun v => (handler v).map pure

end DirectArm

def widenCalls {β ρ : Type} (into : ρ → β) (calls : List (CaseCall (DirectArm ρ) ρ)) :
    List (MatcherCall β) :=
  calls.map (CaseCall.map (fun arm => (arm.map into).toArm) fun answer => pure (into answer))

def widenAnswers {β ρ : Type} (into : ρ → β) (calls : List (CaseCall ρ ρ)) :
    List (CaseCall β β) :=
  calls.map (CaseCall.map into into)

end Coproduct
