import Coproduct.Proofs.Bundle.Reachable
/-!
# An access and the check that it may skip

A bundle that keeps a constructor hands it out without looking at the declaration. What it answers
is still what a constructor of one's own would answer, whose tag is checked each time
(`Sound.make_eq_standalone`): the two differ in the identity of the constructor and in what the
bundle reports, never in a tag, a member or an error. Only what the bundle gains is reported.
-/

namespace Coproduct.Bundle

open Json (Value)

variable {S : Declaration} {b : Bundle} {fresh next : Nat} {name : String}

theorem Sound.map_tag_get_eq_standalone (hb : b.Sound S fresh) (name : String) (next other : Nat) :
    (b.get S name next).value.1.map (·.tag) = (Constructor.standalone S name other).map (·.tag) := by
  rw [hb.map_tag_get, Constructor.standalone]
  cases S.declare name <;> rfl

/-- **A bundle builds the member** that a constructor of one's own builds, or fails alike. -/
theorem Sound.make_eq_standalone (hb : b.Sound S fresh) (name : String) (payload : Value)
    (next other : Nat) :
    (b.make S name payload next).value.1 =
      (Constructor.standalone S name other).map (·.call payload) := by
  rw [hb.make_eq, Constructor.standalone]
  cases S.declare name <;> rfl

/-- A name is refused by a bundle exactly where it is refused without one, for the same reason. -/
theorem Sound.get_eq_error_iff (hb : b.Sound S fresh) {cause : TagError} (next other : Nat) :
    (b.get S name next).value.1 = .error cause ↔
      Constructor.standalone S name other = .error cause := by
  have htag := hb.map_tag_get_eq_standalone name next other
  cases hget : (b.get S name next).value.1 with
  | ok c =>
      rw [hget] at htag
      cases hstandalone : Constructor.standalone S name other with
      | ok d => simp
      | error cause' =>
          rw [hstandalone] at htag
          cases htag
  | error cause' =>
      rw [hget] at htag
      cases hstandalone : Constructor.standalone S name other with
      | ok d =>
          rw [hstandalone] at htag
          cases htag
      | error cause'' =>
          rw [hstandalone] at htag
          cases htag
          simp

theorem Sound.get_of_empty (hb : b.Sound S fresh) (next : Nat) :
    (b.get S "" next).value.1 = .error .empty := by
  refine (hb.get_eq_error_iff next next).mpr ?_
  rfl

/-- Only an empty name and an undeclared one are refused. -/
theorem Sound.cause_of_get (hb : b.Sound S fresh) {cause : TagError}
    (h : (b.get S name next).value.1 = .error cause) (hname : name ≠ "") :
    S.contains name = false ∧ cause = .unknown S.name name := by
  have hdeclare := hb.map_tag_get name next
  rw [h] at hdeclare
  cases hcontains : S.contains name with
  | true =>
      have htag : S.declare name = .ok ⟨name, hname⟩ :=
        Declaration.declare_eq_ok_iff.mpr ⟨⟨hname, hcontains⟩, rfl⟩
      cases hdeclare.trans htag
  | false =>
      cases hdeclare.trans (Declaration.declare_of_not_contains hname hcontains)
      exact ⟨rfl, rfl⟩

end Coproduct.Bundle
