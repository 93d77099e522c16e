import Coproduct.Refinement
import Coproduct.Proofs.Declaration
import Coproduct.Proofs.Logged
/-!
# What passes a refinement

A foreign value passes exactly when the tag is contained, the value is an object, and its two
fields hold the tag and an acceptable payload. The member that comes out has this tag and payload.

A test and a narrowing run the same checks, but a member needs a tag as well, and the list of a sum
type may have the empty name in it. For the empty name a test can therefore hold where nothing
comes out of the narrowing; that is the only difference (`test_and_narrow_agree_iff`).

§1 the checks · §2 narrowing · §3 tests and narrowings.
-/

namespace Coproduct.Refinement

open Json (Value)

variable {r : Refinement} {foreign v : Value} {m : Member}

/-! ## §1  The checks -/

def outcome (r : Refinement) (foreign : Value) : Except Rejection Value :=
  (payloadOf r.sum r.tag (fun v => (pure (r.accepts v) : Id Bool)) foreign).run

theorem payload_value : (r.payload foreign).value = (r.outcome foreign).toOption := by
  unfold payload outcome
  split
  · next heq =>
      rw [heq]
      rfl
  · next heq =>
      rw [heq]
      rfl

/-- **What passes the checks.** -/
theorem outcome_eq_ok_iff :
    r.outcome foreign = .ok v ↔
      r.sum.contains r.tag = true ∧ ∃ fields, foreign = .object fields ∧
        fields.lookup Member.tagKey = some (.string r.tag) ∧
        fields.lookup Member.payloadKey = some v ∧ r.accepts v = true := by
  constructor
  · intro h
    unfold outcome payloadOf at h
    split at h
    · cases h
    · next hcontains =>
      split at h
      · next fields =>
        split at h
        · next name htag =>
          split at h
          · cases h
          · next hname =>
            obtain rfl : name = r.tag := by simpa using hname
            split at h
            · cases h
            · next w hpayload =>
              cases haccepts : r.accepts w with
              | false =>
                  simp [haccepts] at h
              | true =>
                  simp only [haccepts, pure_bind, if_true] at h
                  cases h
                  exact ⟨by simpa using hcontains, fields, rfl, htag, hpayload, haccepts⟩
        · cases h
      · cases h
  · rintro ⟨hcontains, fields, rfl, htag, hpayload, haccepts⟩
    simp [outcome, payloadOf, hcontains, htag, hpayload, haccepts]

/-- The same by the two fields alone, which only objects have. -/
theorem outcome_eq_ok_iff_field? :
    r.outcome foreign = .ok v ↔
      r.sum.contains r.tag = true ∧ foreign.field? Member.tagKey = some (.string r.tag) ∧
        foreign.field? Member.payloadKey = some v ∧ r.accepts v = true := by
  rw [outcome_eq_ok_iff]
  refine and_congr_right fun _ => ⟨?_, ?_⟩
  · rintro ⟨fields, rfl, htag, hpayload, haccepts⟩
    exact ⟨htag, hpayload, haccepts⟩
  · rintro ⟨htag, hpayload, haccepts⟩
    cases foreign with
    | object fields => exact ⟨fields, rfl, htag, hpayload, haccepts⟩
    | null | bool | number | string | array => cases htag

theorem payload_value_eq_some_iff :
    (r.payload foreign).value = some v ↔ r.outcome foreign = .ok v := by
  rw [payload_value]
  cases r.outcome foreign <;> simp [Except.toOption]

/-! ## §2  Narrowing -/

/-- The member that comes out has the tag of the refinement and the payload that passed. -/
theorem narrow_value_eq_some_iff :
    (r.narrow foreign).value = some m ↔
      m.tag.name = r.tag ∧ r.outcome foreign = .ok m.payload := by
  have hnarrow : (r.narrow foreign).value =
      (r.payload foreign).value.bind fun v =>
        (Tag.ofString r.tag).toOption.map fun t => (⟨t, v⟩ : Member) := by
    unfold narrow
    rw [Logged.value_bind]
    cases (r.payload foreign).value with
    | none => rfl
    | some v => cases Tag.ofString r.tag <;> rfl
  rw [hnarrow]
  constructor
  · intro h
    obtain ⟨v, hv, htag⟩ := Option.bind_eq_some_iff.mp h
    obtain ⟨t, ht, rfl⟩ := Option.map_eq_some_iff.mp htag
    cases hname : Tag.ofString r.tag with
    | error cause =>
        rw [hname] at ht
        cases ht
    | ok t' =>
        rw [hname] at ht
        cases ht
        exact ⟨Tag.ofString_eq_ok_iff.mp hname, payload_value_eq_some_iff.mp hv⟩
  · rintro ⟨hname, hpayload⟩
    rw [payload_value_eq_some_iff.mpr hpayload, Tag.ofString_eq_ok_iff.mpr hname]
    rfl

/-! ## §3  Tests and narrowings -/

theorem test_value_eq_true_iff :
    (r.test foreign).value = true ↔ ∃ v, r.outcome foreign = .ok v := by
  have htest : (r.test foreign).value = (r.payload foreign).value.isSome := rfl
  rw [htest, Option.isSome_iff_exists]
  exact exists_congr fun v => payload_value_eq_some_iff

/-- A member comes out exactly where the test holds and the tag is one that a member can have. -/
theorem exists_narrow_iff :
    (∃ m, (r.narrow foreign).value = some m) ↔ (r.test foreign).value = true ∧ r.tag ≠ "" := by
  rw [test_value_eq_true_iff]
  constructor
  · rintro ⟨m, hm⟩
    obtain ⟨hname, houtcome⟩ := narrow_value_eq_some_iff.mp hm
    exact ⟨⟨m.payload, houtcome⟩, hname ▸ m.tag.nonempty⟩
  · rintro ⟨⟨v, houtcome⟩, hname⟩
    exact ⟨⟨⟨r.tag, hname⟩, v⟩, narrow_value_eq_some_iff.mpr ⟨rfl, houtcome⟩⟩

/-- The test holds exactly where a member comes out, and the member has the tag of the refinement
and the payload of the foreign value. -/
def Agrees (r : Refinement) (foreign : Value) : Prop :=
  ((r.test foreign).value = true ↔ ∃ m, (r.narrow foreign).value = some m) ∧
    ∀ m, (r.narrow foreign).value = some m →
      m.tag.name = r.tag ∧ foreign.field? Member.payloadKey = some m.payload

/-- **Tests and narrowings agree**, whatever the sum type, the tag, the predicate and the foreign
value, unless the empty name is asked for, the sum type lists it, and the foreign value has the
empty name for a tag and an acceptable payload: then the test holds and no member comes out. -/
theorem test_and_narrow_agree_iff (r : Refinement) (foreign : Value) :
    r.Agrees foreign ↔
      ¬ (r.tag = "" ∧ (∃ tags, r.sum.tags = .listed tags ∧ "" ∈ tags) ∧
        foreign.field? Member.tagKey = some (.string "") ∧
        ∃ v, foreign.field? Member.payloadKey = some v ∧ r.accepts v = true) := by
  have hshape : ∀ m, (r.narrow foreign).value = some m →
      m.tag.name = r.tag ∧ foreign.field? Member.payloadKey = some m.payload := by
    intro m hm
    obtain ⟨hname, houtcome⟩ := narrow_value_eq_some_iff.mp hm
    exact ⟨hname, (outcome_eq_ok_iff_field?.mp houtcome).2.2.1⟩
  have hagrees : r.Agrees foreign ↔ ¬ ((r.test foreign).value = true ∧ r.tag = "") := by
    rw [Agrees, and_iff_left hshape, exists_narrow_iff, iff_self_and, not_and]
  have hlisted : r.sum.contains "" = true ↔ ∃ tags, r.sum.tags = .listed tags ∧ "" ∈ tags := by
    unfold Declaration.contains
    cases r.sum.tags with
    | listed tags => simp [DeclaredTags.contains]
    | every => simp [DeclaredTags.contains]
  rw [hagrees]
  refine not_congr (and_comm.trans (and_congr_right fun hname => ?_))
  rw [test_value_eq_true_iff, ← hlisted]
  simp only [outcome_eq_ok_iff_field?, hname]
  constructor
  · rintro ⟨v, hcontains, htag, hpayload⟩
    exact ⟨hcontains, htag, v, hpayload⟩
  · rintro ⟨hcontains, htag, v, hpayload⟩
    exact ⟨v, hcontains, htag, hpayload⟩

/-- A list with the empty name in it, and a foreign value that has the empty name for a tag. -/
theorem test_without_narrow :
    let r : Refinement := ⟨⟨"Blank", .listed ["", "x"]⟩, "", fun _ => true⟩
    let foreign : Value := .object [("_tag", .string ""), ("_value", .null)]
    (r.test foreign).value = true ∧ (r.narrow foreign).value = none := by
  exact ⟨rfl, rfl⟩

end Coproduct.Refinement
