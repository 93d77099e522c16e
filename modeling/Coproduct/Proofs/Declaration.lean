import Coproduct.Declaration
/-!
# Which names are declared

A name becomes a tag of a sum type exactly when it is not empty and the sum type contains it.
Emptiness is noticed first, also where the list of a sum type has the empty name in it.
-/

namespace Coproduct

namespace Tag

theorem ext {x y : Tag} (h : x.name = y.name) : x = y := by
  cases x
  cases y
  simp only at h
  subst h
  rfl

@[simp] theorem ofString_name (tag : Tag) : ofString tag.name = .ok tag :=
  dif_neg tag.nonempty

theorem ofString_eq_ok_iff {name : String} {tag : Tag} :
    ofString name = .ok tag ↔ tag.name = name := by
  constructor
  · intro h
    unfold ofString at h
    split at h
    · cases h
    · cases h
      rfl
  · rintro rfl
    exact ofString_name tag

end Tag

namespace Declaration

variable {S : Declaration} {name : String}

/-- A name that is a tag of the sum type: it is not empty, and it is contained. -/
def Declares (S : Declaration) (name : String) : Prop := name ≠ "" ∧ S.contains name = true

theorem declares_tag {tag : Tag} : S.Declares tag.name ↔ S.contains tag.name = true := by
  constructor
  · rintro ⟨-, hcontains⟩
    exact hcontains
  · intro hcontains
    exact ⟨tag.nonempty, hcontains⟩

theorem recognise_eq_ok_iff {tag tag' : Tag} :
    S.recognise tag = .ok tag' ↔ S.contains tag.name = true ∧ tag' = tag := by
  unfold recognise
  split
  · next hcontains =>
    constructor
    · intro h
      cases h
      exact ⟨hcontains, rfl⟩
    · rintro ⟨-, rfl⟩
      rfl
  · next hcontains =>
    constructor
    · intro h
      cases h
    · rintro ⟨h, -⟩
      exact absurd h hcontains

theorem declare_tag (tag : Tag) : S.declare tag.name = S.recognise tag := by
  rw [declare, Tag.ofString_name]
  rfl

theorem declare_of_empty : S.declare "" = .error .empty := rfl

theorem declare_of_contains {tag : Tag} (h : S.contains tag.name = true) :
    S.declare tag.name = .ok tag := by
  rw [declare_tag, recognise_eq_ok_iff]
  exact ⟨h, rfl⟩

theorem declare_of_not_contains (hname : name ≠ "") (h : S.contains name = false) :
    S.declare name = .error (.unknown S.name name) := by
  have htag : Tag.ofString name = .ok ⟨name, hname⟩ := Tag.ofString_eq_ok_iff.mpr rfl
  rw [declare, htag]
  show S.recognise ⟨name, hname⟩ = _
  simp [recognise, h]

theorem declare_eq_ok_iff {tag : Tag} :
    S.declare name = .ok tag ↔ S.Declares name ∧ tag.name = name := by
  by_cases hname : name = ""
  · subst hname
    constructor
    · intro h
      cases h
    · rintro ⟨⟨hne, -⟩, -⟩
      exact absurd rfl hne
  · obtain ⟨t, rfl⟩ : ∃ t : Tag, t.name = name := ⟨⟨name, hname⟩, rfl⟩
    rw [declare_tag, recognise_eq_ok_iff, declares_tag]
    refine and_congr_right ?_
    intro _
    constructor
    · rintro rfl
      rfl
    · exact Tag.ext

theorem contains_of_declare_eq_ok {tag : Tag} (h : S.declare name = .ok tag) :
    S.contains tag.name = true := by
  obtain ⟨⟨-, hcontains⟩, rfl⟩ := declare_eq_ok_iff.mp h
  exact hcontains

theorem declare_eq_ok_of_declares (h : S.Declares name) :
    ∃ tag : Tag, S.declare name = .ok tag ∧ tag.name = name :=
  ⟨⟨name, h.1⟩, declare_eq_ok_iff.mpr ⟨h, rfl⟩, rfl⟩

theorem not_declares_of_declare_eq_error {cause : TagError} (h : S.declare name = .error cause) :
    ¬ S.Declares name := by
  intro hdeclares
  obtain ⟨tag, htag, -⟩ := declare_eq_ok_of_declares hdeclares
  cases h.symm.trans htag

end Declaration

end Coproduct
