import Coproduct.Proofs.Bundle.Interleaving
/-!
# The states of a bundle

A bundle is new, or some accesses later, one after another or racing, whether they succeed or not.
All that is known of such a bundle is that it is sound.
-/

namespace Coproduct.Bundle

open Json (Value)

/-- The states that a bundle of `S` can be in, with identities below a bound used up. -/
inductive Reachable (S : Declaration) : Bundle → Nat → Prop where
  | new (fresh : Nat) : Reachable S empty fresh
  | get {b : Bundle} {fresh : Nat} (h : Reachable S b fresh) (name : String) :
      Reachable S (b.get S name fresh).value.2 (fresh + 1)
  | make {b : Bundle} {fresh : Nat} (h : Reachable S b fresh) (name : String) (payload : Value) :
      Reachable S (b.make S name payload fresh).value.2 (fresh + 1)
  | deserialize {b : Bundle} {fresh : Nat} (h : Reachable S b fresh) (p : Pair) :
      Reachable S (b.deserialize S p fresh).value.2 (fresh + 1)
  | race {b : Bundle} {fresh : Nat} (h : Reachable S b fresh) (requests : List (List String))
      (schedule : List Nat) :
      Reachable S ((Race.start b requests fresh).run S schedule).bundle
        ((Race.start b requests fresh).run S schedule).fresh

variable {S : Declaration} {b : Bundle} {fresh : Nat}

theorem Reachable.sound (h : Reachable S b fresh) : b.Sound S fresh := by
  induction h with
  | new fresh => exact Sound.empty S fresh
  | get _ name ih => exact ih.get name
  | make _ name _ ih => exact ih.get name
  | deserialize _ p ih => exact ih.get p.tag.name
  | race _ requests schedule ih =>
      exact ((Race.consistent_start ih requests).run schedule).sound

/-- An access to a sound bundle is answered as if the name were checked anew: what is handed out
has the tag that the declaration gives, and what is refused is refused for the same reason. -/
theorem Sound.map_tag_get (h : b.Sound S fresh) (name : String) (next : Nat) :
    (b.get S name next).value.1.map (·.tag) = S.declare name := by
  rcases get_cases S b name next with
    ⟨c, hfind, hget⟩ | ⟨cause, -, hdeclare, hget⟩ | ⟨tag, -, hdeclare, hget⟩
  · rw [hget, h.declare_of_find? hfind]
    rfl
  · rw [hget, hdeclare]
    rfl
  · rw [hget, hdeclare]
    rfl

/-- So is the building of a member. -/
theorem Sound.make_eq (h : b.Sound S fresh) (name : String) (payload : Value) (next : Nat) :
    (b.make S name payload next).value.1 =
      (S.declare name).map fun tag => (⟨tag, payload⟩ : Member) := by
  rw [make_value, ← h.map_tag_get name next]
  cases (b.get S name next).value.1 <;> rfl

theorem Sound.deserialize_of_contains (h : b.Sound S fresh) {p : Pair}
    (hcontains : S.contains p.tag.name = true) (next : Nat) :
    (b.deserialize S p next).value.1 = .ok ⟨p.tag, p.payload⟩ := by
  have hmake := h.make_eq p.tag.name p.payload next
  rw [Declaration.declare_of_contains hcontains] at hmake
  exact hmake

/-- A pair of an undeclared tag is refused, and that leaves no trace. -/
theorem Sound.deserialize_of_not_contains (h : b.Sound S fresh) {p : Pair}
    (hcontains : S.contains p.tag.name = false) (next : Nat) :
    b.deserialize S p next = ⟨(.error (.unknown S.name p.tag.name), b), []⟩ := by
  have hdeclare := Declaration.declare_of_not_contains p.tag.nonempty hcontains
  have hmiss : b.find? p.tag.name = none := by
    cases hfind : b.find? p.tag.name with
    | none => rfl
    | some c => cases hdeclare.symm.trans (h.declare_of_find? hfind)
  have hget : b.get S p.tag.name next = ⟨(.error (.unknown S.name p.tag.name), b), []⟩ :=
    get_of_error hmiss hdeclare
  unfold deserialize make
  rw [hget]
  rfl

end Coproduct.Bundle
