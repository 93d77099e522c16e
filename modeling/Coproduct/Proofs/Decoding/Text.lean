import Coproduct.Decoding.Stream
import Coproduct.Proofs.Decoding.Pair
/-!
# Pairs and members in a text

Both start with the pair at the front of the text. For a pair nothing may follow; for a member the
tag must be declared as well, and that is noticed before what follows.
-/

namespace Coproduct

open Json (Value Token tokens)

variable {S : Declaration} {text : String} {p : Pair} {m : Member} {rest : List Token}

theorem Stream.complete_eq_ok_iff {α : Type} {x y : α} :
    complete x rest = .ok y ↔ rest = [] ∧ x = y := by
  cases rest with
  | nil => simp [complete]
  | cons token rest => simp [complete]

theorem Pair.ofText_of_error {cause : ReadError} (h : Stream.readPair (tokens text) = .error cause) :
    Pair.ofText text = .error cause := by
  simp only [Pair.ofText, h]
  rfl

theorem Pair.ofText_of_ok (h : Stream.readPair (tokens text) = .ok (p, rest)) :
    Pair.ofText text = Stream.complete p rest := by
  simp only [Pair.ofText, h]
  rfl

theorem Pair.ofText_eq_ok_iff :
    Pair.ofText text = .ok p ↔ Stream.readPair (tokens text) = .ok (p, []) := by
  cases hread : Stream.readPair (tokens text) with
  | error cause => simp [Pair.ofText_of_error hread]
  | ok result =>
      obtain ⟨q, rest⟩ := result
      rw [Pair.ofText_of_ok hread, Stream.complete_eq_ok_iff]
      constructor
      · rintro ⟨rfl, rfl⟩
        rfl
      · intro h
        cases h
        exact ⟨rfl, rfl⟩

namespace Member

theorem ofText_of_error {cause : ReadError} (h : Stream.readPair (tokens text) = .error cause) :
    ofText S text = .error cause := by
  simp only [ofText, h]
  rfl

theorem ofText_of_undeclared (h : Stream.readPair (tokens text) = .ok (p, rest))
    (hcontains : S.contains p.tag.name = false) :
    ofText S text = .error (.data (.tag (.unknown S.name p.tag.name))) := by
  have hrecognise : S.recognise p.tag = .error (.unknown S.name p.tag.name) := by
    simp [Declaration.recognise, hcontains]
  simp only [ofText, h, bind, Except.bind, hrecognise]

theorem ofText_of_declared (h : Stream.readPair (tokens text) = .ok (p, rest))
    (hcontains : S.contains p.tag.name = true) :
    ofText S text = Stream.complete ⟨p.tag, p.payload⟩ rest := by
  have hrecognise : S.recognise p.tag = .ok p.tag :=
    Declaration.recognise_eq_ok_iff.mpr ⟨hcontains, rfl⟩
  simp only [ofText, h, bind, Except.bind, hrecognise]

/-- A text is a member exactly when it is a pair whose tag is declared. -/
theorem ofText_eq_ok_iff :
    ofText S text = .ok m ↔ Pair.ofText text = .ok m.serialize ∧ m.DeclaredBy S := by
  rw [Pair.ofText_eq_ok_iff]
  cases hread : Stream.readPair (tokens text) with
  | error cause => simp [ofText_of_error hread]
  | ok result =>
      obtain ⟨p, rest⟩ := result
      cases hcontains : S.contains p.tag.name with
      | false =>
          rw [ofText_of_undeclared hread hcontains]
          constructor
          · intro h
            cases h
          · rintro ⟨h, hdeclared⟩
            cases h
            exact absurd (hdeclared.symm.trans hcontains) Bool.noConfusion
      | true =>
          rw [ofText_of_declared hread hcontains, Stream.complete_eq_ok_iff]
          constructor
          · rintro ⟨rfl, rfl⟩
            exact ⟨rfl, hcontains⟩
          · rintro ⟨h, -⟩
            cases h
            exact ⟨rfl, rfl⟩

end Member

end Coproduct
