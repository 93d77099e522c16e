import Coproduct.Decoding.Codec
import Coproduct.Matching.Table
/-!
# Matchers

A matcher of a sum type answers every member by the arm of its tag. An arm reads the payload as it
is, or decoded as some type, or decoded as a member of another sum type that a matcher of that
type goes on with. Matchers are therefore finite trees, and matching walks down one branch.

A failure to decode is an error of the level at which it happens; errors of an inner matcher come
out as they are.

§1 arms and matchers · §2 building · §3 matching · §4 matchers of stored answers.
-/

namespace Coproduct

open Json (Value)

/-! ## §1  Arms and matchers -/

inductive Arm (β : Type) where
  | plain (handler : Value → Logged β)
  | typed (handler : Value → Except DecodeError (Logged β))
  | nested (sum : Declaration) (table : CaseTable (Arm β) (Logged β))

structure Matcher (β : Type) where
  sum : Declaration
  table : CaseTable (Arm β) (Logged β)

namespace Arm

variable {α β : Type}

def on (handler : Value → β) : Arm β := .plain fun v => pure (handler v)

def onAs (codec : Codec α) (handler : α → Logged β) : Arm β :=
  .typed fun v => (codec.decode v).map handler

/-- An arm that decodes the payload as a member and matches it. -/
def onMember (inner : Matcher β) : Arm β := .nested inner.sum inner.table

end Arm

abbrev MatcherCall (β : Type) := CaseCall (Arm β) (Logged β)

/-! ## §2  Building -/

namespace Matcher

variable {β : Type}

def unchecked (S : Declaration) (calls : List (MatcherCall β)) : Matcher β :=
  ⟨S, CaseTable.ofCalls calls⟩

def checked (S : Declaration) (calls : List (MatcherCall β)) :
    Logged (Except SumError (Matcher β)) := do
  let table ← (CaseTable.ofCalls calls).checked S
  return table.map fun table => ⟨S, table⟩

def outline (M : Matcher β) : String :=
  "Matcher \x7b sum: " ++ quoted M.sum.name ++ ", arms: " ++ quotedList M.table.sortedNames ++
    ", wildcard: " ++ (if M.table.wildcard.isSome then "true" else "false") ++ " \x7d"

end Matcher

/-! ## §3  Matching -/

namespace CaseTable

variable {α ω : Type}

theorem mem_of_lookup {name : String} {a : α} {arms : List (String × α)}
    (h : arms.lookup name = some a) : (name, a) ∈ arms := by
  obtain ⟨before, after, rfl, -⟩ := List.lookup_eq_some_iff.mp h
  exact List.mem_append_cons_self

theorem mem_of_select {t : CaseTable α ω} {name : String} {a : α} (h : t.select name = .arm a) :
    (name, a) ∈ t.arms := by
  unfold select at h
  split at h
  · next heq => cases h; exact mem_of_lookup heq
  · split at h <;> cases h

theorem sizeOf_lt_of_select [SizeOf α] [SizeOf ω] {t : CaseTable α ω} {name : String} {a : α}
    (h : t.select name = .arm a) : sizeOf a < sizeOf t := by
  have hm := List.sizeOf_lt_of_mem (mem_of_select h)
  cases t with
  | mk arms wildcard repeated =>
    simp only [Prod.mk.sizeOf_spec] at hm
    simp only [mk.sizeOf_spec]
    omega

end CaseTable

def CaseTable.apply {β : Type} (S : Declaration) (t : CaseTable (Arm β) (Logged β)) (m : Member) :
    Logged (Except SumError β) :=
  match _h : t.select m.tag.name with
  | .arm (.plain handler) => return .ok (← handler m.payload)
  | .arm (.typed handler) =>
    match handler m.payload with
    | .ok result => return .ok (← result)
    | .error cause => pure (.error (.payload S.name m.tag.name (.decode cause)))
  | .arm (.nested T inner) =>
    match (Codec.member T).decode m.payload with
    | .ok n => inner.apply T n
    | .error cause => pure (.error (.payload S.name m.tag.name (.decode cause)))
  | .wildcard handler => do
    Logged.emit (.wildcardUsed S.name m.tag.name)
    return .ok (← handler)
  | .nothing => do
    Logged.emit (.nothingMatched S.name m.tag.name)
    return .error (.unmatched S.name m.tag.name)
termination_by sizeOf t
decreasing_by
  have := CaseTable.sizeOf_lt_of_select _h
  simp only [Arm.nested.sizeOf_spec] at this
  omega

def Matcher.apply {β : Type} (M : Matcher β) (m : Member) : Logged (Except SumError β) :=
  M.table.apply M.sum m

/-! ## §4  Matchers of stored answers -/

/-- A matcher whose arms are answers and never look at a payload. -/
structure StrictMatcher (β : Type) where
  sum : Declaration
  table : CaseTable β β

namespace StrictMatcher

variable {β : Type}

def unchecked (S : Declaration) (calls : List (CaseCall β β)) : StrictMatcher β :=
  ⟨S, CaseTable.ofCalls calls⟩

def checked (S : Declaration) (calls : List (CaseCall β β)) :
    Logged (Except SumError (StrictMatcher β)) := do
  let table ← (CaseTable.ofCalls calls).checked S
  return table.map fun table => ⟨S, table⟩

def apply (M : StrictMatcher β) (m : Member) : Logged (Except SumError β) :=
  match M.table.select m.tag.name with
  | .arm answer => pure (.ok answer)
  | .wildcard answer => do
    Logged.emit (.wildcardUsed M.sum.name m.tag.name)
    return .ok answer
  | .nothing => do
    Logged.emit (.nothingMatched M.sum.name m.tag.name)
    return .error (.unmatched M.sum.name m.tag.name)

def outlineBy (shown : β → String) (M : StrictMatcher β) : String :=
  "StrictMatcher \x7b sum: " ++ quoted M.sum.name ++ ", arms: " ++
    quotedList M.table.sortedNames ++ ", wildcard: " ++
    (match M.table.wildcard with
      | some answer => "Some(" ++ shown answer ++ ")"
      | none => "None") ++ " \x7d"

def outline (M : StrictMatcher Value) : String := M.outlineBy Value.outline

end StrictMatcher

end Coproduct
