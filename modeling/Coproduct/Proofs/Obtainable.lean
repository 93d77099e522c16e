import Coproduct.Proofs.Bundle.Reachable
import Coproduct.Proofs.Decoding.Text
import Coproduct.Proofs.Refinement
/-!
# Which members can be obtained

A member of a sum type is called or encoded by a constructor, made or deserialized by a bundle,
decoded from a value, read from a text, or narrowed from a foreign value. On each of these ways the
tag is checked, or is kept by a bundle that has checked it; so the members that can be obtained are
exactly those whose tag is declared, with any payload (`obtainable_iff`).
-/

namespace Coproduct

open Json (Value)

variable {S : Declaration}

/-- The constructors of `S` that can be obtained: one of its own, one that a bundle hands out, or
one that a client of a race is given. -/
inductive Constructor.Obtainable (S : Declaration) : Constructor → Prop where
  | standalone {name : String} {fresh : Nat} {c : Constructor}
      (h : Constructor.standalone S name fresh = .ok c) : Obtainable S c
  | kept {b : Bundle} {fresh : Nat} {name : String} {c : Constructor} (hb : b.Reachable S fresh)
      (h : (b.get S name fresh).value.1 = .ok c) : Obtainable S c
  | raced {b : Bundle} {fresh : Nat} {requests : List (List String)} {schedule : List Nat}
      {name : String} {c : Constructor} (hb : b.Reachable S fresh)
      (h : (name, .ok c) ∈ ((Race.start b requests fresh).run S schedule).answers) :
      Obtainable S c

/-- The members of `S` that can be obtained. -/
inductive Member.Obtainable (S : Declaration) : Member → Prop where
  | called {c : Constructor} (hc : c.Obtainable S) (payload : Value) : Obtainable S (c.call payload)
  | unit {c : Constructor} (hc : c.Obtainable S) : Obtainable S c.unit
  | encoded {c : Constructor} {payload : Content} {m : Member} (hc : c.Obtainable S)
      (h : c.encode S payload = .ok m) : Obtainable S m
  | made {b : Bundle} {fresh : Nat} {name : String} {payload : Value} {m : Member}
      (hb : b.Reachable S fresh) (h : (b.make S name payload fresh).value.1 = .ok m) :
      Obtainable S m
  | deserialized {b : Bundle} {fresh : Nat} {p : Pair} {m : Member} (hb : b.Reachable S fresh)
      (h : (b.deserialize S p fresh).value.1 = .ok m) : Obtainable S m
  | decoded {v : Value} {m : Member} (h : (Codec.member S).decode v = .ok m) : Obtainable S m
  | read {text : String} {m : Member} (h : Member.ofText S text = .ok m) : Obtainable S m
  | narrowed {tag : String} {accepts : Value → Bool} {foreign : Value} {m : Member}
      (h : (Refinement.narrow ⟨S, tag, accepts⟩ foreign).value = some m) : Obtainable S m

theorem Constructor.standalone_eq_ok_iff {name : String} {fresh : Nat} {c : Constructor} :
    Constructor.standalone S name fresh = .ok c ↔
      S.declare name = .ok c.tag ∧ c.identity = fresh := by
  rw [Constructor.standalone]
  cases S.declare name with
  | error cause => simp [Except.map]
  | ok tag =>
      obtain ⟨identity, tag'⟩ := c
      simp [Except.map, and_comm, eq_comm]

theorem Constructor.encode_of_ok {content : Content} {v : Value} (h : content.encode = .ok v)
    (S : Declaration) (c : Constructor) : c.encode S content = .ok (c.call v) := by
  rw [encode, h]

/-- A constructor that can be obtained has a declared tag. -/
theorem Constructor.Obtainable.contains {c : Constructor} (h : c.Obtainable S) :
    S.contains c.tag.name = true := by
  cases h with
  | standalone h =>
      exact Declaration.contains_of_declare_eq_ok (standalone_eq_ok_iff.mp h).1
  | @kept b fresh name _ hb h =>
      have hdeclare := hb.sound.map_tag_get name fresh
      rw [h] at hdeclare
      exact Declaration.contains_of_declare_eq_ok hdeclare.symm
  | @raced b fresh requests schedule _ _ hb h =>
      have hconsistent := (Race.consistent_start hb.sound requests).run schedule
      exact hconsistent.sound.declared _ (hconsistent.explains h).1

namespace Member

theorem declaredBy_of_make {b : Bundle} {fresh next : Nat} {name : String} {payload : Value}
    {m : Member} (hb : b.Sound S fresh) (h : (b.make S name payload next).value.1 = .ok m) :
    m.DeclaredBy S := by
  rw [hb.make_eq] at h
  cases hdeclare : S.declare name with
  | error cause =>
      rw [hdeclare] at h
      cases h
  | ok tag =>
      rw [hdeclare] at h
      cases h
      exact Declaration.contains_of_declare_eq_ok hdeclare

theorem declaredBy_of_encode {c : Constructor} {payload : Content} {m : Member}
    (hc : S.contains c.tag.name = true) (h : c.encode S payload = .ok m) : m.DeclaredBy S := by
  unfold Constructor.encode at h
  split at h
  · cases h
    exact hc
  · cases h

/-- A member that can be obtained is declared. -/
theorem Obtainable.declaredBy {m : Member} (h : m.Obtainable S) : m.DeclaredBy S := by
  cases h with
  | called hc payload => exact hc.contains
  | unit hc => exact hc.contains
  | encoded hc h => exact declaredBy_of_encode hc.contains h
  | made hb h => exact declaredBy_of_make hb.sound h
  | deserialized hb h => exact declaredBy_of_make hb.sound h
  | decoded h => exact (Codec.member_decode_eq_ok_iff.mp h).2
  | read h => exact (ofText_eq_ok_iff.mp h).2
  | narrowed h =>
      obtain ⟨hname, houtcome⟩ := Refinement.narrow_value_eq_some_iff.mp h
      show S.contains _ = true
      rw [hname]
      exact (Refinement.outcome_eq_ok_iff.mp houtcome).1

/-- **The members that can be obtained** are those whose tag is declared, with any payload. -/
theorem obtainable_iff {m : Member} : m.Obtainable S ↔ m.DeclaredBy S := by
  constructor
  · exact Obtainable.declaredBy
  · intro h
    -- One way is enough: a constructor of its own builds any declared member.
    have hstandalone : Constructor.standalone S m.tag.name 0 = .ok ⟨0, m.tag⟩ :=
      Constructor.standalone_eq_ok_iff.mpr ⟨Declaration.declare_of_contains h, rfl⟩
    exact .called (.standalone hstandalone) m.payload

end Member

end Coproduct
