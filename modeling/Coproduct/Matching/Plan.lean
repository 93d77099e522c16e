import Coproduct.Matching.Flavour
/-!
# Plans

A plan says how a matcher is built, with the matchers inside it, and which of them are checked. A
call that could not be read has a place in the plan as well. Building goes through the calls in
order, inner matchers first, and the first rejection or unreadable call is the answer for the whole.
Widened calls are planned like any others, and building them gives the widened calls of the matcher
(`ArmPlan.buildCalls_widen`).
-/

namespace Coproduct

/-- What an arm of a plan does. Besides the arms of matchers there is one that turns the outcome
of an inner matcher, failure or not, into an answer. A call that could not be read is `none`. -/
inductive ArmPlan (β : Type) where
  | direct (arm : DirectArm β)
  | nested (sum : Declaration) (checked : Bool) (calls : List (Option (CaseCall (ArmPlan β) β)))
  | replied (sum : Declaration) (checked : Bool) (calls : List (Option (CaseCall (ArmPlan β) β)))
    (reply : Except SumError β → β)

/-- A call of a plan; one that could not be read is `none`. -/
abbrev PlannedCall (β : Type) := Option (CaseCall (ArmPlan β) β)

structure MatcherPlan (β : Type) where
  sum : Declaration
  checked : Bool
  calls : List (PlannedCall β)

/-- Why a plan gives no matcher: a call cannot be read, or a matcher is rejected. -/
inductive BuildFailure where
  | unreadable
  | rejected (cause : SumError)

namespace Matcher

variable {β : Type}

def ofCalls (S : Declaration) (isChecked : Bool) (calls : List (MatcherCall β)) :
    Logged (Except BuildFailure (Matcher β)) := do
  if isChecked then return (← checked S calls).mapError .rejected
  else return .ok (unchecked S calls)

end Matcher

namespace ArmPlan

variable {β : Type}

mutual

def build : ArmPlan β → Logged (Except BuildFailure (Arm β))
  | .direct arm => pure (.ok arm.toArm)
  | .nested sum checked calls => do
    match ← buildCalls calls with
    | .error cause => return .error cause
    | .ok calls => return (← Matcher.ofCalls sum checked calls).map Arm.onMember
  | .replied sum checked calls reply => do
    match ← buildCalls calls with
    | .error cause => return .error cause
    | .ok calls =>
      -- To the outer matcher this is an arm that decodes; it does not know of the inner one.
      return (← Matcher.ofCalls sum checked calls).map fun inner =>
        .onAs (Codec.member sum) fun m => reply <$> inner.apply m

def buildCalls :
    List (Option (CaseCall (ArmPlan β) β)) → Logged (Except BuildFailure (List (MatcherCall β)))
  | [] => pure (.ok [])
  | none :: _ => pure (.error .unreadable)
  | some (.wildcard answer) :: rest =>
    return (← buildCalls rest).map (.wildcard (pure answer) :: ·)
  | some (.arm name plan) :: rest => do
    match ← build plan with
    | .error cause => return .error cause
    | .ok arm => return (← buildCalls rest).map (.arm name arm :: ·)

end

def widen {ρ : Type} (into : ρ → β) : CaseCall (DirectArm ρ) ρ → CaseCall (ArmPlan β) β :=
  CaseCall.map (fun arm => .direct (arm.map into)) into

theorem buildCalls_widen {ρ : Type} (into : ρ → β) (calls : List (CaseCall (DirectArm ρ) ρ)) :
    buildCalls (calls.map fun call => some (widen into call)) =
      pure (.ok (widenCalls into calls)) := by
  induction calls with
  | nil => rfl
  | cons call rest ih =>
    cases call with
    | arm name arm =>
      simp only [List.map_cons, widen, CaseCall.map, buildCalls, build] at ih ⊢
      rw [ih]
      rfl
    | wildcard answer =>
      simp only [List.map_cons, widen, CaseCall.map, buildCalls] at ih ⊢
      rw [ih]
      rfl

end ArmPlan

/-- Builds a matcher, inner matchers first. -/
def MatcherPlan.build {β : Type} (plan : MatcherPlan β) :
    Logged (Except BuildFailure (Matcher β)) := do
  match ← ArmPlan.buildCalls plan.calls with
  | .error cause => return .error cause
  | .ok calls => Matcher.ofCalls plan.sum plan.checked calls

end Coproduct
