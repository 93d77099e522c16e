import Coproduct.Proofs.Matching.Descent
import Coproduct.Proofs.Matching.Lookup
import Coproduct.Proofs.Matching.Nesting
/-!
# What matching reports

A matcher whose handlers raise no events says by itself how matching ended: with one event where the
wildcard answered, with another where there was nothing for the tag, and with none where an arm
answered or could not decode the payload. Matching goes down through matchers inside matchers, but
only the level where it ends says anything, so there is one event at most, and it names this level
(`events_tell_the_outcome`).

§1 quiet matchers · §2 the way down · §3 the report of an ending · §4 events and outcomes.
-/

namespace Coproduct

open Json (Value)

variable {α β ρ : Type} {S : Declaration}

/-! ## §1  Quiet matchers -/

/-- The handlers of an arm raise no events, nor do those of the matchers behind it. -/
inductive Arm.Quiet : Arm β → Prop where
  | plain {handler : Value → Logged β} (hanswer : ∀ v, (handler v).events = []) :
      Quiet (.plain handler)
  | typed {handler : Value → Except DecodeError (Logged β)}
      (hanswer : ∀ v answer, handler v = .ok answer → answer.events = []) : Quiet (.typed handler)
  | nested {T : Declaration} {table : CaseTable (Arm β) (Logged β)}
      (harms : ∀ name arm, table.arm? name = some arm → Quiet arm)
      (hwildcard : ∀ answer, table.wildcard = some answer → answer.events = []) :
      Quiet (.nested T table)

/-- The handlers of a matcher raise no events, nor do those of the matchers inside it. -/
structure Matcher.Quiet (M : Matcher β) : Prop where
  arms : ∀ name arm, M.table.arm? name = some arm → arm.Quiet
  wildcard : ∀ answer, M.table.wildcard = some answer → answer.events = []

namespace Arm

theorem quiet_on (handler : Value → β) : (Arm.on handler).Quiet := .plain fun _ => rfl

theorem quiet_onAs (codec : Codec α) {handler : α → Logged β}
    (hanswer : ∀ x, (handler x).events = []) : (Arm.onAs codec handler).Quiet := by
  refine .typed fun v answer hok => ?_
  rcases hdecode : codec.decode v with cause | x
  · rw [hdecode] at hok
    cases hok
  · rw [hdecode] at hok
    cases hok
    exact hanswer x

theorem quiet_onMember_iff {M : Matcher β} : (Arm.onMember M).Quiet ↔ M.Quiet := by
  constructor
  · intro h
    cases h with
    | nested harms hwildcard => exact ⟨harms, hwildcard⟩
  · rintro ⟨harms, hwildcard⟩
    exact .nested harms hwildcard

end Arm

/-- A matcher is quiet when what it is built of is, with a check or without one. -/
theorem Matcher.quiet_of_ofCalls {M : Matcher β} {isChecked : Bool} {calls : List (MatcherCall β)}
    (hbuilt : (ofCalls S isChecked calls).value = .ok M)
    (harms : ∀ name arm, .arm name arm ∈ calls → arm.Quiet)
    (hwildcard : ∀ answer, .wildcard answer ∈ calls → answer.events = []) : M.Quiet := by
  obtain ⟨rfl, -⟩ := ofCalls_value_eq_ok_iff.mp hbuilt
  constructor
  · intro name arm harm
    have hlast : (CaseCall.armsFor name calls).getLast? = some arm := by
      rw [← CaseTable.arm?_ofCalls]
      exact harm
    obtain ⟨before, after, rfl, -⟩ := CaseCall.lastArm_iff.mpr hlast
    exact harms name arm (by simp)
  · intro answer hanswer
    have hlast : (CaseCall.wildcards calls).getLast? = some answer := by
      rw [← CaseTable.wildcard_ofCalls]
      exact hanswer
    obtain ⟨before, after, rfl, -⟩ := CaseCall.lastWildcard_iff.mpr hlast
    exact hwildcard answer (by simp)

/-! ## §2  The way down -/

namespace MatchLevel

variable {l l' : MatchLevel β} {e : Ending β}

theorem Down.quiet (h : l.Down l') (hl : l.matcher.Quiet) : l'.matcher.Quiet :=
  Arm.quiet_onMember_iff.mp (hl.arms l.name _ h.1)

/-- The matchers that matching comes to are quiet where the first one is. -/
theorem Reaches.quiet (h : l.Reaches l') (hl : l.matcher.Quiet) : l'.matcher.Quiet := by
  induction h with
  | refl => exact hl
  | tail _ hdown ih => exact hdown.quiet ih

end MatchLevel

/-! ## §3  The report of an ending -/

/-- What an ending at a level reports of itself. -/
def Ending.report (l : MatchLevel β) : Ending β → List Event
  | .answered _ | .refused _ => []
  | .fellBack _ => [.wildcardUsed l.sum l.name]
  | .unmatched => [.nothingMatched l.sum l.name]

namespace Ending

variable {l : MatchLevel β} {e : Ending β}

theorem length_report_le (l : MatchLevel β) (e : Ending β) : (e.report l).length ≤ 1 := by
  cases e <;> simp [report]

/-- What is reported names the level. -/
theorem names_of_mem_report {event : Event} (h : event ∈ e.report l) :
    event.sum = l.sum ∧ event.tag? = some l.name := by
  cases e with
  | answered | refused => cases h
  | fellBack | unmatched =>
      cases List.mem_singleton.mp h
      exact ⟨rfl, rfl⟩

theorem reports_wildcard_iff :
    (∃ event ∈ e.report l, event.level = .trace ∧ event.message = "falling back to wildcard") ↔
      ∃ answer, e = .fellBack answer := by
  constructor
  · rintro ⟨event, hmem, hlevel, -⟩
    cases e with
    | answered | refused => cases hmem
    | fellBack answer => exact ⟨answer, rfl⟩
    | unmatched =>
        cases List.mem_singleton.mp hmem
        cases hlevel
  · rintro ⟨answer, rfl⟩
    exact ⟨_, List.mem_singleton_self _, rfl, rfl⟩

theorem reports_nothing_iff :
    (∃ event ∈ e.report l, event.level = .debug ∧ event.message = "no arm and no wildcard") ↔
      e = .unmatched := by
  constructor
  · rintro ⟨event, hmem, hlevel, -⟩
    cases e with
    | answered | refused => cases hmem
    | fellBack answer =>
        cases List.mem_singleton.mp hmem
        cases hlevel
    | unmatched => rfl
  · rintro rfl
    exact ⟨_, List.mem_singleton_self _, rfl, rfl⟩

theorem report_eq_nil_iff :
    e.report l = [] ↔ (∃ answer, e = .answered answer) ∨ ∃ cause, e = .refused cause := by
  cases e <;> simp [report]

end Ending

namespace MatchLevel

variable {l l' : MatchLevel β} {e : Ending β}

/-- Quiet handlers add nothing to it. -/
theorem Ends.events_eq (h : l.Ends e) (hl : l.matcher.Quiet) : l.result.events = e.report l := by
  rw [h.result_eq]
  cases h with
  | @plain handler harm =>
      cases hl.arms _ _ harm with
      | plain hanswer => exact hanswer _
  | @typed α codec handler x harm hdecode =>
      cases hl.arms _ _ harm with
      | typed hanswer => exact hanswer l.member.payload _ (congrArg (Except.map handler) hdecode)
  | wildcard harm hwildcard => simp [Ending.result, Ending.report, hl.wildcard _ hwildcard]
  | illTyped harm hdecode => rfl
  | noMember harm hdecode => rfl
  | nothing harm hwildcard => rfl

/-- **Only the level where matching ends** says anything. -/
theorem Reaches.events_eq (h : l.Reaches l') (hends : l'.Ends e) (hl : l.matcher.Quiet) :
    l.result.events = e.report l' := by
  rw [h.result_eq, hends.events_eq (h.quiet hl)]

end MatchLevel

/-! ## §4  Events and outcomes -/

theorem events_reported_eq_nil_iff {r : Except SumError α} :
    (reported S r).events = [] ↔ ∃ a, r = .ok a := by
  rcases r with cause | a <;> simp [reported]

theorem HandlerMap.checked_eq_reported (H : HandlerMap ρ β) (S : Declaration) :
    H.checked S = reported S ((H.check S).map fun _ => H.unchecked S) := by
  rw [checked_eq_checked_unchecked, BuiltMatcher.checked_eq_reported, check_unchecked,
    sum_unchecked]

/-- **Events tell the outcome.** Take any matcher, checked or not, whose own handlers raise no
events, with matchers inside matchers to any depth, and any member, whatever its payload. Matching
raises one event at most. It is the one for a wildcard just where the outcome is the answer of a
wildcard on some level; it is the one for want of an arm just where the outcome is unmatched; and
there is none just where the outcome is the answer of an arm on some level, or the payload error of
a level whose arm cannot decode the payload. The event names the sum type and the tag of the deepest
level that matching comes to, which are those of the error where the outcome is unmatched. Building
a matcher of any flavour with a check raises no event where it succeeds; a rejection raises just
one, with the text of the error. -/
theorem events_tell_the_outcome (M : Matcher β) (hM : M.Quiet) (m : Member) :
    let top : MatchLevel β := ⟨M, m⟩
    let outcome := (M.apply m).value
    let events := (M.apply m).events
    events.length ≤ 1 ∧
    ((∃ e ∈ events, e.level = .trace ∧ e.message = "falling back to wildcard") ↔
      ∃ l answer, top.Reaches l ∧ l.Ends (.fellBack answer) ∧ outcome = .ok answer.value) ∧
    ((∃ e ∈ events, e.level = .debug ∧ e.message = "no arm and no wildcard") ↔
      ∃ sum name, outcome = .error (.unmatched sum name)) ∧
    (events = [] ↔
      (∃ l answer, top.Reaches l ∧ l.Ends (.answered answer) ∧ outcome = .ok answer.value) ∨
        ∃ l cause, top.Reaches l ∧ l.Ends (.refused cause) ∧
          outcome = .error (.payload l.sum l.name (.decode cause))) ∧
    (∃ l, top.Reaches l ∧ (∀ k, top.Reaches k → k.Reaches l) ∧
      (∀ e ∈ events, e.sum = l.sum ∧ e.tag? = some l.name) ∧
      ∀ sum name, outcome = .error (.unmatched sum name) → l.sum = sum ∧ l.name = name) ∧
    ∀ (ρ : Type) (H : HandlerMap ρ β) (S : Declaration),
      ((H.checked S).events = [] ↔ ∃ N, (H.checked S).value = .ok N) ∧
      ∀ cause, (H.checked S).value = .error cause →
        ∃ e, (H.checked S).events = [e] ∧ e.level = .debug ∧ e.message = "rejected handler map" ∧
          e.sum = S.name ∧ e.errorText? = some cause.message := by
  intro top outcome events
  obtain ⟨l, e, hreaches, hends⟩ := top.exists_ends
  have hevents : ∀ k e, top.Reaches k → k.Ends e → events = e.report k :=
    fun _ _ hk hkends => hk.events_eq hkends hM
  have houtcome : outcome = (e.result l).value := by
    show top.result.value = _
    rw [hreaches.result_eq, hends.result_eq]
  refine ⟨?one, ?wildcard, ?nothing, ?silent, ⟨l, hreaches, ?deepest, ?named, ?unmatched⟩, ?built⟩
  case one =>
    rw [hevents l e hreaches hends]
    exact e.length_report_le l
  case wildcard =>
    constructor
    · intro h
      rw [hevents l e hreaches hends] at h
      obtain ⟨answer, rfl⟩ := Ending.reports_wildcard_iff.mp h
      exact ⟨l, answer, hreaches, hends, houtcome⟩
    · rintro ⟨k, answer, hk, hkends, -⟩
      rw [hevents k _ hk hkends]
      exact Ending.reports_wildcard_iff.mpr ⟨answer, rfl⟩
  case nothing =>
    rw [hevents l e hreaches hends, Ending.reports_nothing_iff, houtcome]
    cases e <;> simp [Ending.result]
  case silent =>
    constructor
    · intro h
      rw [hevents l e hreaches hends] at h
      obtain ⟨answer, rfl⟩ | ⟨cause, rfl⟩ := Ending.report_eq_nil_iff.mp h
      · exact .inl ⟨l, answer, hreaches, hends, houtcome⟩
      · exact .inr ⟨l, cause, hreaches, hends, houtcome⟩
    · rintro (⟨k, answer, hk, hkends, -⟩ | ⟨k, cause, hk, hkends, -⟩)
      · exact hevents k _ hk hkends
      · exact hevents k _ hk hkends
  case deepest => exact fun k hk => hk.reaches_of_ends hreaches hends
  case named =>
    intro event hevent
    rw [hevents l e hreaches hends] at hevent
    exact Ending.names_of_mem_report hevent
  case unmatched =>
    intro sum name hunmatched
    rw [houtcome] at hunmatched
    cases e <;> cases hunmatched
    exact ⟨rfl, rfl⟩
  case built =>
    intro ρ H S
    rw [H.checked_eq_reported S, value_reported]
    refine ⟨events_reported_eq_nil_iff, fun cause hcause => ?_⟩
    rw [hcause]
    exact ⟨_, rfl, rfl, rfl, rfl, rfl⟩

/-- A checked matcher hands a payload to one without a check, and there the wildcard answers. -/
theorem events_tell_the_outcome_inside :
    let sides : Matcher Nat := .unchecked ⟨"Side", .every⟩ [.wildcard (pure 7)]
    let calls : List (MatcherCall Nat) :=
      [.arm "Dot" (.on fun _ => 0), .arm "Circle" (.onAs Codec.double fun _ => pure 1),
        .arm "Polygon" (.onMember sides)]
    let shapes : Matcher Nat := .unchecked ⟨"Shape", .listed ["Dot", "Circle", "Polygon"]⟩ calls
    let m : Member := ⟨⟨"Polygon", by decide⟩, .array [.string "Long", .null]⟩
    (Matcher.ofCalls shapes.sum true calls).value = .ok shapes ∧ shapes.Quiet ∧
      (shapes.apply m).events.length ≤ 1 ∧
      ∃ e ∈ (shapes.apply m).events, e.level = .trace ∧ e.message = "falling back to wildcard" := by
  intro sides calls shapes m
  have hbuilt : (Matcher.ofCalls shapes.sum true calls).value = .ok shapes := by
    refine Matcher.ofCalls_value_eq_ok_iff.mpr ⟨rfl, fun _ => ?_⟩
    rw [CaseTable.check_ofCalls (by decide) (by decide)]
    rfl
  have hsides : sides.Quiet := by
    have hunchecked : (Matcher.ofCalls sides.sum false [.wildcard (pure 7)]).value = .ok sides :=
      rfl
    apply Matcher.quiet_of_ofCalls hunchecked
    · simp
    · simp
  have hshapes : shapes.Quiet := by
    apply Matcher.quiet_of_ofCalls hbuilt
    · intro name arm harm
      simp only [calls, List.mem_cons, CaseCall.arm.injEq, List.not_mem_nil, or_false] at harm
      obtain ⟨-, rfl⟩ | ⟨-, rfl⟩ | ⟨-, rfl⟩ := harm
      · exact Arm.quiet_on _
      · exact Arm.quiet_onAs Codec.double fun _ => rfl
      · exact Arm.quiet_onMember_iff.mpr hsides
    · simp [calls]
  let n : Member := ⟨⟨"Long", by decide⟩, .null⟩
  have hdown : MatchLevel.Down ⟨shapes, m⟩ ⟨sides, n⟩ := ⟨rfl, rfl⟩
  have hends : MatchLevel.Ends ⟨sides, n⟩ (.fellBack (pure 7)) := .wildcard rfl rfl
  have hvalue : (shapes.apply m).value = .ok 7 :=
    congrArg Logged.value (hdown.result_eq.trans hends.result_eq)
  obtain ⟨hone, hwildcard, -⟩ := events_tell_the_outcome shapes hshapes m
  exact ⟨hbuilt, hshapes, hone, hwildcard.mpr ⟨_, _, .single hdown, hends, hvalue⟩⟩

end Coproduct
