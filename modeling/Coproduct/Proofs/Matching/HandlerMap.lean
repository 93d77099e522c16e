import Coproduct.Proofs.Matching.Dispatch
/-!
# Handler maps of four flavours

A handler map collects calls in one of four flavours: handlers or stored answers, in the common
type of the matcher or in a type of their own that is converted into it. It becomes a matcher with
a check or without. Which flavour it has makes no difference to the check and to the question
whether something is selected: both depend on the names of the arms and on the presence of a
wildcard alone.
-/

namespace Coproduct

open Json (Value)

variable {ρ β : Type} {S : Declaration}

/-- The calls on a handler map of one of the four flavours. -/
inductive HandlerMap (ρ β : Type) where
  | handlers (calls : List (MatcherCall β))
  | widened (into : ρ → β) (calls : List (CaseCall (DirectArm ρ) ρ))
  | stored (calls : List (CaseCall β β))
  | storedWidened (into : ρ → β) (calls : List (CaseCall ρ ρ))

inductive BuiltMatcher (β : Type) where
  | handlers (M : Matcher β)
  | stored (M : StrictMatcher β)

namespace HandlerMap

def armNames : HandlerMap ρ β → List String
  | .handlers calls => CaseCall.armNames calls
  | .widened _ calls => CaseCall.armNames calls
  | .stored calls => CaseCall.armNames calls
  | .storedWidened _ calls => CaseCall.armNames calls

def hasWildcard : HandlerMap ρ β → Bool
  | .handlers calls => CaseCall.hasWildcard calls
  | .widened _ calls => CaseCall.hasWildcard calls
  | .stored calls => CaseCall.hasWildcard calls
  | .storedWidened _ calls => CaseCall.hasWildcard calls

def unchecked (S : Declaration) : HandlerMap ρ β → BuiltMatcher β
  | .handlers calls => .handlers (Matcher.unchecked S calls)
  | .widened into calls => .handlers (Matcher.unchecked S (widenCalls into calls))
  | .stored calls => .stored (StrictMatcher.unchecked S calls)
  | .storedWidened into calls => .stored (StrictMatcher.unchecked S (widenAnswers into calls))

def checked (S : Declaration) : HandlerMap ρ β → Logged (Except SumError (BuiltMatcher β))
  | .handlers calls => return (← Matcher.checked S calls).map .handlers
  | .widened into calls => return (← Matcher.checked S (widenCalls into calls)).map .handlers
  | .stored calls => return (← StrictMatcher.checked S calls).map .stored
  | .storedWidened into calls =>
    return (← StrictMatcher.checked S (widenAnswers into calls)).map .stored

def check (S : Declaration) : HandlerMap ρ β → Except SumError Unit
  | .handlers calls => (CaseTable.ofCalls calls).check S
  | .widened into calls => (CaseTable.ofCalls (widenCalls into calls)).check S
  | .stored calls => (CaseTable.ofCalls calls).check S
  | .storedWidened into calls => (CaseTable.ofCalls (widenAnswers into calls)).check S

end HandlerMap

namespace BuiltMatcher

def sum : BuiltMatcher β → Declaration
  | .handlers M => M.sum
  | .stored M => M.sum

def check : BuiltMatcher β → Except SumError Unit
  | .handlers M => M.table.check M.sum
  | .stored M => M.table.check M.sum

def checked : BuiltMatcher β → Logged (Except SumError (BuiltMatcher β))
  | .handlers M => Except.map (fun t => .handlers ⟨M.sum, t⟩) <$> M.table.checked M.sum
  | .stored M => Except.map (fun t => .stored ⟨M.sum, t⟩) <$> M.table.checked M.sum

def apply (m : Member) : BuiltMatcher β → Logged (Except SumError β)
  | .handlers M => M.apply m
  | .stored M => M.apply m

/-- The matcher is one of stored answers. -/
def IsStored : BuiltMatcher β → Prop
  | .handlers _ => False
  | .stored _ => True

/-- The selection of the matcher itself finds an arm or the wildcard for a member. -/
def Finds (m : Member) : BuiltMatcher β → Prop
  | .handlers M => M.table.select m.tag.name ≠ .nothing
  | .stored M => M.table.select m.tag.name ≠ .nothing

/-- The arm for a member hands the payload on to an inner matcher, and that one fails. -/
def InnerFails (m : Member) (cause : SumError) : BuiltMatcher β → Prop
  | .handlers M =>
    ∃ T inner n, M.table.select m.tag.name = .arm (.nested T inner) ∧
      (Codec.member T).decode m.payload = .ok n ∧ (inner.apply T n).value = .error cause
  | .stored _ => False

/-- Matching a member fails for want of an arm, and it is this matcher that says so. -/
def Unmatched (m : Member) (M : BuiltMatcher β) : Prop :=
  (M.apply m).value = .error (.unmatched M.sum.name m.tag.name) ∧
    ¬ M.InnerFails m (.unmatched M.sum.name m.tag.name)

theorem checked_eq_reported (M : BuiltMatcher β) :
    M.checked = reported M.sum (M.check.map fun _ => M) := by
  rcases M with M | M
  all_goals
    simp only [checked, check, sum, CaseTable.checked_eq_reported]
    rcases M.table.check M.sum with cause | u <;> rfl

theorem verdict_checked (M : BuiltMatcher β) : verdict M.checked = reported M.sum M.check := by
  rw [checked_eq_reported, verdict_reported]
  rcases M.check with cause | u <;> rfl

theorem apply_of_not_finds {M : BuiltMatcher β} {m : Member} (h : ¬ M.Finds m) :
    M.apply m =
      ⟨.error (.unmatched M.sum.name m.tag.name), [.nothingMatched M.sum.name m.tag.name]⟩ := by
  cases M with
  | handlers M => exact CaseTable.apply_of_nothing (not_not.mp h)
  | stored M => exact StrictMatcher.apply_of_nothing (not_not.mp h)

theorem innerFails_of_finds {M : BuiltMatcher β} {m : Member} {sum name : String} (h : M.Finds m)
    (happly : (M.apply m).value = .error (.unmatched sum name)) :
    M.InnerFails m (.unmatched sum name) := by
  cases M with
  | handlers M =>
      have hvalue : (M.table.apply M.sum m).value = .error (.unmatched sum name) := happly
      cases hselect : M.table.select m.tag.name with
      | arm a =>
          rw [CaseTable.apply_of_arm hselect] at hvalue
          obtain ⟨T, inner, n, rfl, hdecode, hinner⟩ := Arm.run_eq_unmatched hvalue
          exact ⟨T, inner, n, hselect, hdecode, hinner⟩
      | wildcard w =>
          rw [CaseTable.apply_of_wildcard hselect] at hvalue
          cases hvalue
      | nothing => exact absurd hselect h
  | stored M =>
      have hvalue : (M.apply m).value = .error (.unmatched sum name) := happly
      cases hselect : M.table.select m.tag.name with
      | arm answer =>
          rw [StrictMatcher.apply_of_arm hselect] at hvalue
          cases hvalue
      | wildcard answer =>
          rw [StrictMatcher.apply_of_wildcard hselect] at hvalue
          cases hvalue
      | nothing => exact absurd hselect h

/-- A matcher fails by itself exactly where its selection finds nothing. -/
theorem unmatched_iff {M : BuiltMatcher β} {m : Member} : M.Unmatched m ↔ ¬ M.Finds m := by
  constructor
  · rintro ⟨happly, hinner⟩ hfinds
    exact hinner (innerFails_of_finds hfinds happly)
  · intro h
    refine ⟨by rw [apply_of_not_finds h], ?_⟩
    intro hinner
    cases M with
    | handlers M =>
        obtain ⟨T, inner, n, hselect, -⟩ := hinner
        rw [not_not.mp h] at hselect
        cases hselect
    | stored M => exact hinner

/-- Where something is found, stored answers are answers. -/
theorem IsStored.apply_eq_ok {M : BuiltMatcher β} {m : Member} (hstored : M.IsStored)
    (h : M.Finds m) : ∃ answer, (M.apply m).value = .ok answer := by
  cases M with
  | handlers M => exact hstored.elim
  | stored M =>
      cases hselect : M.table.select m.tag.name with
      | arm answer => exact ⟨answer, congrArg Logged.value (StrictMatcher.apply_of_arm hselect)⟩
      | wildcard answer =>
          exact ⟨answer, congrArg Logged.value (StrictMatcher.apply_of_wildcard hselect)⟩
      | nothing => exact absurd hselect h

end BuiltMatcher

/-! Converted calls have the same names, so it makes no difference which flavour it is. -/

section Widening

variable (into : ρ → β)

theorem armNames_widenCalls (calls : List (CaseCall (DirectArm ρ) ρ)) :
    CaseCall.armNames (widenCalls into calls) = CaseCall.armNames calls :=
  CaseCall.armNames_map _ _ calls

theorem hasWildcard_widenCalls (calls : List (CaseCall (DirectArm ρ) ρ)) :
    CaseCall.hasWildcard (widenCalls into calls) = CaseCall.hasWildcard calls :=
  CaseCall.hasWildcard_map _ _ calls

theorem armNames_widenAnswers (calls : List (CaseCall ρ ρ)) :
    CaseCall.armNames (widenAnswers into calls) = CaseCall.armNames calls :=
  CaseCall.armNames_map _ _ calls

theorem hasWildcard_widenAnswers (calls : List (CaseCall ρ ρ)) :
    CaseCall.hasWildcard (widenAnswers into calls) = CaseCall.hasWildcard calls :=
  CaseCall.hasWildcard_map _ _ calls

end Widening

/-! A check changes nothing about what is built of calls. -/

theorem Matcher.checked_value (S : Declaration) (calls : List (MatcherCall β)) :
    (checked S calls).value =
      ((CaseTable.ofCalls calls).check S).map fun _ => unchecked S calls := by
  simp only [checked, Logged.value_bind, Logged.value_pure, CaseTable.checked_value]
  cases (CaseTable.ofCalls calls).check S <;> rfl

namespace HandlerMap

theorem sum_unchecked (H : HandlerMap ρ β) (S : Declaration) : (H.unchecked S).sum = S := by
  cases H <;> rfl

theorem check_unchecked (H : HandlerMap ρ β) (S : Declaration) :
    (H.unchecked S).check = H.check S := by
  cases H <;> rfl

/-- To build with a check is to check what is built without one. -/
theorem checked_eq_checked_unchecked (H : HandlerMap ρ β) (S : Declaration) :
    H.checked S = (H.unchecked S).checked := by
  rcases H with calls | ⟨into, calls⟩ | calls | ⟨into, calls⟩
  all_goals
    simp only [checked, unchecked, BuiltMatcher.checked, Matcher.checked, StrictMatcher.checked,
      Matcher.unchecked, StrictMatcher.unchecked, bind_pure_comp, Functor.map_map]
    refine congrArg (· <$> _) (funext fun r => ?_)
    rcases r with cause | t <;> rfl

theorem checked_value (H : HandlerMap ρ β) (S : Declaration) :
    (H.checked S).value = (H.check S).map fun _ => H.unchecked S := by
  rw [checked_eq_checked_unchecked, BuiltMatcher.checked_eq_reported, value_reported,
    check_unchecked]

theorem checked_eq_ok_iff {H : HandlerMap ρ β} {M : BuiltMatcher β} :
    (H.checked S).value = .ok M ↔ H.check S = .ok () ∧ M = H.unchecked S := by
  rw [checked_value]
  cases H.check S with
  | error cause => simp [Except.map]
  | ok u => simp [Except.map, eq_comm]

theorem checked_eq_error_iff {H : HandlerMap ρ β} {cause : SumError} :
    (H.checked S).value = .error cause ↔ H.check S = .error cause := by
  rw [checked_value]
  cases H.check S <;> simp [Except.map]

/-- The check of calls that neither repeat a name nor give an undeclared one. -/
theorem check_eq_coverageOf (H : HandlerMap ρ β) (hnodup : H.armNames.Nodup)
    (hdeclared : ∀ name ∈ H.armNames, S.contains name = true) :
    H.check S = CaseTable.coverageOf S H.armNames H.hasWildcard := by
  cases H with
  | handlers calls | stored calls => exact CaseTable.check_ofCalls hnodup hdeclared
  | widened into calls =>
      simp only [armNames, ← armNames_widenCalls into calls] at hnodup hdeclared
      rw [check, CaseTable.check_ofCalls hnodup hdeclared, armNames_widenCalls,
        hasWildcard_widenCalls]
      rfl
  | storedWidened into calls =>
      simp only [armNames, ← armNames_widenAnswers into calls] at hnodup hdeclared
      rw [check, CaseTable.check_ofCalls hnodup hdeclared, armNames_widenAnswers,
        hasWildcard_widenAnswers]
      rfl

/-- The selection finds something for the names of the arms, or for all where there is a
wildcard. -/
theorem finds_unchecked_iff (H : HandlerMap ρ β) (S : Declaration) (m : Member) :
    (H.unchecked S).Finds m ↔ m.tag.name ∈ H.armNames ∨ H.hasWildcard = true := by
  cases H with
  | handlers calls | stored calls => exact CaseTable.select_ofCalls_ne_nothing_iff calls _
  | widened into calls =>
      have h := CaseTable.select_ofCalls_ne_nothing_iff (widenCalls into calls) m.tag.name
      rw [armNames_widenCalls, hasWildcard_widenCalls] at h
      exact h
  | storedWidened into calls =>
      have h := CaseTable.select_ofCalls_ne_nothing_iff (widenAnswers into calls) m.tag.name
      rw [armNames_widenAnswers, hasWildcard_widenAnswers] at h
      exact h

end HandlerMap

end Coproduct
