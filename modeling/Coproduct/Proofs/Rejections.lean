import Coproduct.Proofs.Refinement
/-!
# The order of the checks

Each check of a refinement can be read alone, as what it asks of the foreign value (`Passes`). They
are made one after another: a value is rejected for the first that it fails, whatever else is wrong
with it, and the predicate is consulted only where the last check has come to it, once and on the
payload (`checks_stop_at_first_failure`). The predicate may have effects of its own: what the checks
do with it is the same in every monad (`payloadOf_eq`).

§1 the reasons · §2 consulting the predicate · §3 the checks one by one · §4 reports.
-/

namespace Coproduct

open Json (Value)

variable {r : Refinement} {foreign v : Value} {reason other : Rejection}

/-! ## §1  The reasons -/

namespace Rejection

def order : List Rejection := [.undeclared, .notObject, .tagMismatch, .payload]

/-- The reasons that are checked before one. -/
def earlier (reason : Rejection) : List Rejection := order.takeWhile fun other => other ≠ reason

theorem length_earlier_lt (h : other ∈ reason.earlier) :
    other.earlier.length < reason.earlier.length := by
  revert h
  cases reason <;> cases other <;> decide

end Rejection

namespace Refinement

/-! ## §2  Consulting the predicate -/

/-- What the checks find before the predicate is consulted: a reason, or the payload. -/
def found (r : Refinement) (foreign : Value) : Except Rejection Value :=
  outcome { r with accepts := fun _ => true } foreign

/-- What the predicate makes of a payload. -/
def judged (v : Value) (accepted : Bool) : Except Rejection Value :=
  if accepted then .ok v else .error .payload

/-- **The predicate is consulted** on the payload and on nothing else, and not more than once. -/
theorem payloadOf_eq {μ : Type → Type} [Monad μ] [LawfulMonad μ] (consult : Value → μ Bool) :
    payloadOf r.sum r.tag consult foreign =
      match r.found foreign with
      | .ok v => judged v <$> consult v
      | .error reason => pure (.error reason) := by
  unfold found outcome payloadOf
  split
  · rfl
  · split
    · split
      · split
        · rfl
        · split
          · rfl
          · next v _ =>
            show _ = judged v <$> consult v
            rw [map_eq_pure_bind]
            refine bind_congr fun accepted => ?_
            cases accepted <;> rfl
      · rfl
    · rfl

theorem consulted_eq : r.consulted foreign = (r.found foreign).toOption.toList := by
  rw [consulted, payloadOf_eq]
  cases r.found foreign <;> rfl

theorem mem_consulted_iff : v ∈ r.consulted foreign ↔ r.found foreign = .ok v := by
  rw [consulted_eq]
  cases r.found foreign <;> simp [Except.toOption, eq_comm]

/-! ## §3  The checks one by one -/

/-- What one check asks of a foreign value. -/
def Passes (r : Refinement) (foreign : Value) : Rejection → Prop
  | .undeclared => r.sum.contains r.tag = true
  | .notObject => ∃ fields, foreign = .object fields
  | .tagMismatch => foreign.field? Member.tagKey = some (.string r.tag)
  | .payload => ∃ v, foreign.field? Member.payloadKey = some v ∧ r.accepts v = true

/-- A foreign value fails one check and passes those before it. -/
def FailsFirst (r : Refinement) (foreign : Value) (reason : Rejection) : Prop :=
  (∀ before ∈ reason.earlier, r.Passes foreign before) ∧ ¬ r.Passes foreign reason

theorem found_eq_ok_iff :
    r.found foreign = .ok v ↔
      r.Passes foreign .undeclared ∧ r.Passes foreign .notObject ∧ r.Passes foreign .tagMismatch ∧
        foreign.field? Member.payloadKey = some v := by
  rw [found, outcome_eq_ok_iff]
  constructor
  · rintro ⟨hcontains, fields, rfl, htag, hpayload, -⟩
    exact ⟨hcontains, ⟨fields, rfl⟩, htag, hpayload⟩
  · rintro ⟨hcontains, ⟨fields, rfl⟩, htag, hpayload⟩
    exact ⟨hcontains, fields, rfl, htag, hpayload, rfl⟩

/-- A foreign value that fails a check and passes those before it is rejected for this one. -/
theorem FailsFirst.outcome_eq (h : r.FailsFirst foreign reason) :
    r.outcome foreign = .error reason := by
  obtain ⟨hbefore, hfails⟩ := h
  cases reason with
  | undeclared =>
      have hcontains : ¬ r.sum.contains r.tag = true := hfails
      simp [outcome, payloadOf, hcontains]
  | notObject =>
      have hcontains : r.sum.contains r.tag = true := hbefore .undeclared (by decide)
      cases foreign with
      | object fields => exact absurd ⟨fields, rfl⟩ hfails
      | null | bool | number | string | array => simp [outcome, payloadOf, hcontains]
  | tagMismatch =>
      have hcontains : r.sum.contains r.tag = true := hbefore .undeclared (by decide)
      obtain ⟨fields, rfl⟩ := hbefore .notObject (by decide)
      have htag : ¬ fields.lookup Member.tagKey = some (.string r.tag) := hfails
      simp only [outcome, payloadOf, hcontains, Bool.not_true, Bool.false_eq_true, if_false]
      split
      · next name hname =>
        have hne : name ≠ r.tag := fun heq => htag (heq ▸ hname)
        simp [hne]
      · rfl
  | payload =>
      have hcontains : r.sum.contains r.tag = true := hbefore .undeclared (by decide)
      obtain ⟨fields, rfl⟩ := hbefore .notObject (by decide)
      have htag : fields.lookup Member.tagKey = some (.string r.tag) :=
        hbefore .tagMismatch (by decide)
      have hpayload : ¬ ∃ v, fields.lookup Member.payloadKey = some v ∧ r.accepts v = true := hfails
      rcases hlookup : fields.lookup Member.payloadKey with _ | v
      · simp [outcome, payloadOf, hcontains, htag, hlookup]
      · have haccepts : ¬ r.accepts v = true := fun haccepts => hpayload ⟨v, hlookup, haccepts⟩
        simp [outcome, payloadOf, hcontains, htag, hlookup, haccepts]

/-- A foreign value that fails none of the checks comes through with its payload. -/
theorem exists_outcome_of_passes (h : ∀ reason, r.Passes foreign reason) :
    ∃ v, r.outcome foreign = .ok v := by
  obtain ⟨fields, rfl⟩ := h .notObject
  obtain ⟨v, hpayload, haccepts⟩ := h .payload
  exact ⟨v, outcome_eq_ok_iff.mpr ⟨h .undeclared, fields, rfl, h .tagMismatch, hpayload, haccepts⟩⟩

/-- Where a check fails, there is a first one that does. -/
theorem exists_failsFirst {reason : Rejection} (h : ¬ r.Passes foreign reason) :
    ∃ first, r.FailsFirst foreign first := by
  by_cases hbefore : ∀ before ∈ reason.earlier, r.Passes foreign before
  · exact ⟨reason, hbefore, h⟩
  · simp only [Classical.not_forall] at hbefore
    obtain ⟨before, hmem, hfails⟩ := hbefore
    exact exists_failsFirst hfails
termination_by reason.earlier.length
decreasing_by exact Rejection.length_earlier_lt hmem

/-- **The reason that is given** is that of the first check that fails. -/
theorem outcome_eq_error_iff : r.outcome foreign = .error reason ↔ r.FailsFirst foreign reason := by
  refine ⟨fun h => ?_, FailsFirst.outcome_eq⟩
  by_cases hpasses : ∀ reason, r.Passes foreign reason
  · obtain ⟨v, hv⟩ := exists_outcome_of_passes hpasses
    cases h.symm.trans hv
  · obtain ⟨other, hother⟩ := Classical.not_forall.mp hpasses
    obtain ⟨first, hfirst⟩ := exists_failsFirst hother
    cases h.symm.trans hfirst.outcome_eq
    exact hfirst

/-! ## §4  Reports -/

/-- What the checks come to is reported where it is a rejection. -/
theorem payload_eq :
    r.payload foreign =
      match r.outcome foreign with
      | .ok v => pure (some v)
      | .error reason => ⟨none, [.refinementRejected reason r.sum.name r.tag]⟩ := by
  unfold payload outcome
  rcases (payloadOf r.sum r.tag (fun v => (pure (r.accepts v) : Id Bool)) foreign).run <;> rfl

/-- A test raises the events of the checks and no others. -/
theorem test_events : (r.test foreign).events = (r.payload foreign).events := by
  simp [test]

/-- A narrowing raises the events of the checks and no others. -/
theorem narrow_events : (r.narrow foreign).events = (r.payload foreign).events := by
  unfold narrow
  rw [Logged.events_bind]
  rcases (r.payload foreign).value with _ | v
  · simp
  · cases Tag.ofString r.tag <;> simp

theorem test_of_ok (h : r.outcome foreign = .ok v) : r.test foreign = ⟨true, []⟩ := by
  refine Logged.ext ?_ ?_
  · exact test_value_eq_true_iff.mpr ⟨v, h⟩
  · rw [test_events, payload_eq, h]
    rfl

theorem test_of_error (h : r.outcome foreign = .error reason) :
    r.test foreign = ⟨false, [.refinementRejected reason r.sum.name r.tag]⟩ := by
  refine Logged.ext ?_ ?_
  · have htest : (r.test foreign).value = (r.payload foreign).value.isSome := rfl
    rw [htest, payload_eq, h]
    rfl
  · rw [test_events, payload_eq, h]

/-- **The checks stop at the first that fails.** Take any refinement and any foreign value. The
predicate is consulted at most once, and then on the payload of an object with the tag that is asked
for, which the sum type contains. The test is false just where one event is raised, and that is a
rejection for the sum type and the tag that gives the reason of the first check that fails; the test
is true just where no event is raised. A narrowing raises the events that the test does. -/
theorem checks_stop_at_first_failure (r : Refinement) (foreign : Value) :
    (r.consulted foreign).length ≤ 1 ∧
    (∀ v, v ∈ r.consulted foreign ↔
      r.sum.contains r.tag = true ∧ (∃ fields, foreign = .object fields) ∧
        foreign.field? Member.tagKey = some (.string r.tag) ∧
        foreign.field? Member.payloadKey = some v) ∧
    ((r.test foreign).value = false ↔
      ∃ e, (r.test foreign).events = [e] ∧ ∃ reason, r.FailsFirst foreign reason ∧
        e.level = .trace ∧ e.message = "refinement rejected: " ++ reason.text ∧
        e.sum = r.sum.name ∧ e.tag? = some r.tag) ∧
    ((r.test foreign).value = true ↔ (r.test foreign).events = []) ∧
    (r.narrow foreign).events = (r.test foreign).events ∧
    Rejection.order.map Rejection.text =
      ["undeclared tag", "not an object", "tag mismatch", "payload"] := by
  refine ⟨?once, ?consulted, ?rejected, ?accepted, ?narrow, rfl⟩
  case once =>
    rw [consulted_eq]
    cases r.found foreign <;> simp [Except.toOption]
  case consulted =>
    intro v
    exact mem_consulted_iff.trans found_eq_ok_iff
  case rejected =>
    rcases houtcome : r.outcome foreign with reason | v
    · simp only [test_of_error houtcome, true_iff]
      exact ⟨_, rfl, reason, outcome_eq_error_iff.mp houtcome, rfl, rfl, rfl, rfl⟩
    · simp [test_of_ok houtcome]
  case accepted =>
    rcases houtcome : r.outcome foreign with reason | v
    · simp [test_of_error houtcome]
    · simp [test_of_ok houtcome]
  case narrow => rw [narrow_events, test_events]

end Refinement

end Coproduct
