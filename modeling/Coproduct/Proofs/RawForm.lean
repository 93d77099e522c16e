import Coproduct.Proofs.Bundle.Serialization
/-!
# Refinement and the raw form

A member's raw form is an object of two fields, and a refinement looks at these two and no others.
So a refinement takes an object by what the two fields are (`narrow_congr`): it brings back the
member whose raw form agrees with the object there, as a member of the sum type that it is for, and
from nothing else does a member come out (`narrow_inverts_raw`).

§1 objects that agree · §2 the raw form · §3 narrowing inverts it.
-/

namespace Coproduct

open Json (Value Fields)

variable {S T : Declaration} {tag : String} {accepts : Value → Bool} {fields fields' : Fields}
  {m n : Member}

/-! ## §1  Objects that agree -/

/-- Two values agree on the fields of the raw form. -/
def Json.Value.AgreesRaw (v w : Value) : Prop :=
  v.field? Member.tagKey = w.field? Member.tagKey ∧
    v.field? Member.payloadKey = w.field? Member.payloadKey

namespace Refinement

/-- The checks of an object read its two fields only, whatever the predicate does besides. -/
theorem payloadOf_congr {μ : Type → Type} [Monad μ] {consult : Value → μ Bool}
    (h : (Value.object fields).AgreesRaw (.object fields')) :
    payloadOf S tag consult (.object fields) = payloadOf S tag consult (.object fields') := by
  obtain ⟨htag, hpayload⟩ := h
  simp only [Value.field?] at htag hpayload
  simp only [payloadOf, htag, hpayload]

theorem narrow_congr {r : Refinement} (h : (Value.object fields).AgreesRaw (.object fields')) :
    r.narrow (.object fields) = r.narrow (.object fields') := by
  simp only [narrow, payload, payloadOf_congr h]

theorem test_congr {r : Refinement} (h : (Value.object fields).AgreesRaw (.object fields')) :
    r.test (.object fields) = r.test (.object fields') := by
  simp only [test, payload, payloadOf_congr h]

theorem consulted_congr {r : Refinement} (h : (Value.object fields).AgreesRaw (.object fields')) :
    r.consulted (.object fields) = r.consulted (.object fields') := by
  simp only [consulted, payloadOf_congr h]

end Refinement

/-! ## §2  The raw form -/

namespace Member

@[simp] theorem field?_tagKey_raw (m : Member) : m.raw.field? tagKey = some (.string m.tag.name) :=
  rfl

@[simp] theorem field?_payloadKey_raw (m : Member) : m.raw.field? payloadKey = some m.payload := rfl

end Member

/-! ## §3  Narrowing inverts the raw form -/

namespace Refinement

variable {r : Refinement} {foreign : Value}

/-- A member comes out of the values that agree with its raw form, where the refinement is for its
tag, the sum type contains it, and the payload is accepted. -/
theorem narrow_value_eq_some_iff_field? :
    (r.narrow foreign).value = some n ↔
      foreign.AgreesRaw n.raw ∧ r.tag = n.tag.name ∧ r.sum.contains r.tag = true ∧
        r.accepts n.payload = true := by
  rw [narrow_value_eq_some_iff, outcome_eq_ok_iff_field?, Value.AgreesRaw,
    Member.field?_tagKey_raw, Member.field?_payloadKey_raw]
  constructor
  · rintro ⟨hname, hcontains, htag, hpayload, haccepts⟩
    exact ⟨⟨hname ▸ htag, hpayload⟩, hname.symm, hcontains, haccepts⟩
  · rintro ⟨⟨htag, hpayload⟩, hname, hcontains, haccepts⟩
    exact ⟨hname.symm, hcontains, hname ▸ htag, hpayload, haccepts⟩

/-- The raw form says which member it is of. -/
theorem eq_of_agreesRaw (hm : foreign.AgreesRaw m.raw) (hn : foreign.AgreesRaw n.raw) : n = m := by
  obtain ⟨⟨name, hname⟩, payload⟩ := m
  obtain ⟨⟨name', hname'⟩, payload'⟩ := n
  obtain ⟨htag, hpayload⟩ := hm
  obtain ⟨htag', hpayload'⟩ := hn
  cases htag.symm.trans htag'
  cases hpayload.symm.trans hpayload'
  rfl

theorem narrow_value_of_agreesRaw (h : foreign.AgreesRaw m.raw) :
    (r.narrow foreign).value =
      if r.tag = m.tag.name ∧ r.sum.contains r.tag = true ∧ r.accepts m.payload = true then some m
      else none := by
  split
  · next hfits => exact narrow_value_eq_some_iff_field?.mpr ⟨h, hfits⟩
  · next hfits =>
    refine Option.eq_none_iff_forall_ne_some.mpr fun n hn => hfits ?_
    obtain ⟨hagrees, hn⟩ := narrow_value_eq_some_iff_field?.mp hn
    obtain rfl := eq_of_agreesRaw h hagrees
    exact hn

/-- A member that comes out comes out of its raw form as well. -/
theorem narrow_raw_of_narrow (h : (r.narrow foreign).value = some n) :
    (r.narrow n.raw).value = some n := by
  obtain ⟨-, hfits⟩ := narrow_value_eq_some_iff_field?.mp h
  exact narrow_value_eq_some_iff_field?.mpr ⟨⟨rfl, rfl⟩, hfits⟩

end Refinement

/-- **Refinement inverts the raw form**, and sees nothing else. An object that agrees with the raw
form of a member of `T` is narrowed, for any sum type, to the member of the same tag and payload if
the refinement asks for this tag, the sum type contains it and the payload is accepted, and to
nothing otherwise; for `T` itself that is the member that a bundle makes of the pair. Whatever comes
out of a foreign value is of the sum type asked for, the value is an object with the tag and the
payload in its two fields, and the raw form leads to the same member again. Objects that agree on
the two fields are not told apart, neither by what comes out nor by what is reported nor by what the
predicate is asked. -/
theorem narrow_inverts_raw :
    (∀ S T m, Member.Obtainable T m → ∀ tag accepts fields, (Value.object fields).AgreesRaw m.raw →
      (Refinement.narrow ⟨S, tag, accepts⟩ (.object fields)).value =
          (if tag = m.tag.name ∧ S.contains tag = true ∧ accepts m.payload = true then some m
          else none) ∧
        ∀ (b : Bundle) fresh next, b.Reachable T fresh → accepts m.payload = true →
          (Refinement.narrow ⟨T, m.tag.name, accepts⟩ (.object fields)).value = some m ∧
            (b.deserialize T m.serialize next).value.1 = .ok m) ∧
    (∀ (r : Refinement) foreign n, (r.narrow foreign).value = some n →
      n.Obtainable r.sum ∧ (∃ fields, foreign = .object fields) ∧
        foreign.field? Member.tagKey = some (.string n.tag.name) ∧
        foreign.field? Member.payloadKey = some n.payload ∧ (r.narrow n.raw).value = some n) ∧
    ∀ (r : Refinement) fields fields', (Value.object fields).AgreesRaw (.object fields') →
      r.narrow (.object fields) = r.narrow (.object fields') ∧
        r.test (.object fields) = r.test (.object fields') ∧
        r.consulted (.object fields) = r.consulted (.object fields') := by
  refine ⟨?inverse, ?converse, ?unseen⟩
  case inverse =>
    intro S T m hm tag accepts fields hraw
    refine ⟨Refinement.narrow_value_of_agreesRaw hraw, ?_⟩
    intro b fresh next hb haccepts
    have hcontains : T.contains m.tag.name = true := hm.declaredBy
    refine ⟨?_, hb.sound.deserialize_eq_ok_iff.mpr ⟨rfl, hcontains⟩⟩
    exact Refinement.narrow_value_eq_some_iff_field?.mpr ⟨hraw, rfl, hcontains, haccepts⟩
  case converse =>
    intro r foreign n hn
    obtain ⟨-, houtcome⟩ := Refinement.narrow_value_eq_some_iff.mp hn
    obtain ⟨-, fields, hobject, -⟩ := Refinement.outcome_eq_ok_iff.mp houtcome
    obtain ⟨⟨htag, hpayload⟩, -⟩ := Refinement.narrow_value_eq_some_iff_field?.mp hn
    exact ⟨.narrowed hn, ⟨fields, hobject⟩, htag, hpayload, Refinement.narrow_raw_of_narrow hn⟩
  case unseen =>
    intro r fields fields' h
    exact ⟨Refinement.narrow_congr h, Refinement.test_congr h, Refinement.consulted_congr h⟩

/-- An object with a third field, narrowed for a sum type that contains the tag of a member of
another one; and refused for one that does not. -/
theorem narrow_inverts_raw_excess :
    let S : Declaration := ⟨"Letters", .listed ["", "a"]⟩
    let U : Declaration := ⟨"Digits", .listed ["1"]⟩
    let T : Declaration := ⟨"Any", .every⟩
    let m : Member := ⟨⟨"a", by decide⟩, .null⟩
    let fields : Fields := [("_tag", .string "a"), ("_value", .null), ("excess", .bool true)]
    m.Obtainable T ∧ (Value.object fields).AgreesRaw m.raw ∧
      (Refinement.narrow ⟨S, "a", fun _ => true⟩ (.object fields)).value = some m ∧
      (Refinement.narrow ⟨U, "a", fun _ => true⟩ (.object fields)).value = none := by
  intro S U T m fields
  have hm : m.Obtainable T := by
    have hdeclared : T.contains m.tag.name = true := by decide
    exact Member.obtainable_iff.mpr hdeclared
  have hraw : (Value.object fields).AgreesRaw m.raw := ⟨rfl, rfl⟩
  obtain ⟨hinverse, -⟩ := narrow_inverts_raw
  obtain ⟨htaken, -⟩ := hinverse S T m hm "a" (fun _ => true) fields hraw
  obtain ⟨hrefused, -⟩ := hinverse U T m hm "a" (fun _ => true) fields hraw
  refine ⟨hm, hraw, ?_, ?_⟩
  · rw [htaken, if_pos (by decide)]
  · rw [hrefused, if_neg (by decide)]

end Coproduct
