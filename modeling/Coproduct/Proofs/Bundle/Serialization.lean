import Coproduct.Proofs.Obtainable
import Mathlib.Data.Set.Function
/-!
# Members and pairs

A member becomes a pair by forgetting its sum type, and a bundle of any sum type makes a member of
the pair again if that sum type declares the tag. Neither way changes the tag or the payload, so
the members of a sum type are the pairs with a declared tag (`bijOn_serialize`), and what a bundle
has kept so far does not matter (`serialize_deserialize_inverse`).
-/

namespace Coproduct

variable {S T : Declaration} {b : Bundle} {fresh next : Nat} {p : Pair} {m n : Member}

namespace Bundle

theorem Sound.deserialize_eq_ok_iff (hb : b.Sound T fresh) :
    (b.deserialize T p next).value.1 = .ok n ↔ n.serialize = p ∧ T.contains p.tag.name = true := by
  cases hcontains : T.contains p.tag.name with
  | true =>
      rw [hb.deserialize_of_contains hcontains]
      constructor
      · intro h
        cases h
        exact ⟨rfl, rfl⟩
      · rintro ⟨rfl, -⟩
        rfl
  | false =>
      rw [hb.deserialize_of_not_contains hcontains]
      refine iff_of_false (fun h => nomatch h) ?_
      rintro ⟨-, h⟩
      cases h

end Bundle

/-- **The members of a sum type** are, by their pairs, the pairs with a declared tag. -/
theorem bijOn_serialize (T : Declaration) :
    Set.BijOn Member.serialize {m | m.Obtainable T} {p | T.Declares p.tag.name} := by
  refine ⟨?_, ?_, ?_⟩
  · intro m hm
    exact Declaration.declares_tag.mpr (Member.obtainable_iff.mp hm)
  · rintro ⟨t, v⟩ - ⟨t', v'⟩ - h
    cases h
    rfl
  · intro p hp
    have hdeclared : Member.DeclaredBy T ⟨p.tag, p.payload⟩ := hp.2
    exact ⟨⟨p.tag, p.payload⟩, Member.obtainable_iff.mpr hdeclared, rfl⟩

/-- **Serialization and deserialization are inverse**, also from one sum type to another. Whatever
a bundle of `T` has been asked for before, it takes the pair of a member of `S` exactly when `T`
contains the tag, and then the same tag and payload come out; otherwise it names `T` and the tag
and stays as it is. What it makes of a pair has that pair. -/
theorem serialize_deserialize_inverse (hb : b.Reachable T fresh) (next : Nat) :
    let result := fun p : Pair => (b.deserialize T p next).value
    (∀ S m, Member.Obtainable S m →
      ((∃ n, (result m.serialize).1 = .ok n) ↔ T.contains m.tag.name = true) ∧
      (∀ n, (result m.serialize).1 = .ok n → n.tag = m.tag ∧ n.payload = m.payload) ∧
      (S = T → (result m.serialize).1 = .ok m) ∧
      (T.contains m.tag.name = false →
        (result m.serialize).1 = .error (.unknown T.name m.tag.name) ∧
        (result m.serialize).2 = b)) ∧
    (∀ p n, (result p).1 = .ok n → n.serialize = p) ∧
    Set.BijOn Member.serialize {m | m.Obtainable T} {p | T.Declares p.tag.name} := by
  intro result
  have hsound := hb.sound
  have htaken : ∀ p n, (result p).1 = .ok n ↔ n.serialize = p ∧ T.contains p.tag.name = true :=
    fun _ _ => hsound.deserialize_eq_ok_iff
  refine ⟨?members, fun p n h => ((htaken p n).mp h).1, bijOn_serialize T⟩
  case members =>
    intro S m hm
    refine ⟨⟨?_, ?_⟩, ?_, ?_, ?_⟩
    · rintro ⟨n, hn⟩
      exact ((htaken _ _).mp hn).2
    · intro hcontains
      exact ⟨m, (htaken _ _).mpr ⟨rfl, hcontains⟩⟩
    · intro n hn
      have hpair : n.serialize = m.serialize := ((htaken _ _).mp hn).1
      exact ⟨congrArg Pair.tag hpair, congrArg Pair.payload hpair⟩
    · rintro rfl
      exact (htaken _ _).mpr ⟨rfl, hm.declaredBy⟩
    · intro hcontains
      have hrefused : b.deserialize T m.serialize next =
          ⟨(.error (.unknown T.name m.tag.name), b), []⟩ :=
        hsound.deserialize_of_not_contains hcontains next
      refine ⟨?_, ?_⟩
      · exact congrArg (·.value.1) hrefused
      · exact congrArg (·.value.2) hrefused

/-- A bundle that has refused one tag and kept another takes a member of another sum type by the
tag that it keeps, and refuses one whose tag its list does not have. -/
theorem serialize_deserialize_inverse_used :
    let S : Declaration := ⟨"Any", .every⟩
    let T : Declaration := ⟨"Letters", .listed ["", "a", "a"]⟩
    let b := (((Bundle.empty.get T "" 0).value.2).make T "a" .null 1).value.2
    let m : Member := ⟨⟨"a", by decide⟩, .bool true⟩
    let n : Member := ⟨⟨"b", by decide⟩, .null⟩
    b.Reachable T 2 ∧ m.Obtainable S ∧ n.Obtainable S ∧
      (∃ k, (b.deserialize T m.serialize 2).value.1 = .ok k) ∧
      (b.deserialize T n.serialize 2).value = (.error (.unknown "Letters" "b"), b) := by
  intro S T b m n
  have hb : b.Reachable T 2 := .make (.get (.new 0) "") "a" .null
  have hm : m.Obtainable S := by
    have hdeclared : S.contains m.tag.name = true := by decide
    exact Member.obtainable_iff.mpr hdeclared
  have hn : n.Obtainable S := by
    have hdeclared : S.contains n.tag.name = true := by decide
    exact Member.obtainable_iff.mpr hdeclared
  obtain ⟨hmembers, -⟩ := serialize_deserialize_inverse hb 2
  obtain ⟨htaken, -⟩ := hmembers S m hm
  obtain ⟨-, -, -, hrefused⟩ := hmembers S n hn
  have hcontains : T.contains m.tag.name = true := by decide
  have hnot : T.contains n.tag.name = false := by decide
  obtain ⟨herror, hsame⟩ := hrefused hnot
  exact ⟨hb, hm, hn, htaken.mpr hcontains, Prod.ext herror hsame⟩

end Coproduct
