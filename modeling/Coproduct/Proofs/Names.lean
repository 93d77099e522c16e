import Coproduct.Tag
import Mathlib.Data.List.Sort
import Mathlib.Data.String.Basic
/-!
# Names in ascending order

Lists of names are sorted before they are shown or searched, so that the order in which they were
kept cannot be seen. Sorting forgets that order altogether (`sortNames_eq_of_perm`), and the first
sorted name with a property is the least name with it (`find?_sortNames_eq_some_iff`).
-/

namespace Coproduct.Tag

variable {names names' : List String} {name : String}

theorem sortNames_perm (names : List String) : (sortNames names).Perm names :=
  List.mergeSort_perm _ _

theorem mem_sortNames : name ∈ sortNames names ↔ name ∈ names := (sortNames_perm names).mem_iff

theorem pairwise_sortNames (names : List String) : (sortNames names).Pairwise (· ≤ ·) := by
  have hle : (sortNames names).Pairwise fun x y => decide (x ≤ y) = true :=
    List.pairwise_mergeSort (by simpa using fun x y z => le_trans) (by simpa using le_total) _
  simpa using hle

/-- **Sorting forgets the order** in which names were kept. -/
theorem sortNames_eq_of_perm (h : names.Perm names') : sortNames names = sortNames names' := by
  have hperm : (sortNames names).Perm (sortNames names') :=
    (sortNames_perm names).trans (h.trans (sortNames_perm names').symm)
  exact hperm.eq_of_pairwise' (pairwise_sortNames names) (pairwise_sortNames names')

/-- The first sorted name with a property is the least one with it. -/
theorem find?_sortNames_eq_some_iff {p : String → Bool} :
    (sortNames names).find? p = some name ↔
      (name ∈ names ∧ p name = true) ∧ ∀ other ∈ names, p other = true → name ≤ other := by
  have hfirst : ∀ {n}, (sortNames names).find? p = some n →
      (n ∈ names ∧ p n = true) ∧ ∀ other ∈ names, p other = true → n ≤ other := by
    intro n hn
    obtain ⟨hp, before, after, hsplit, hbefore⟩ := List.find?_eq_some_iff_append.mp hn
    have hsorted := pairwise_sortNames names
    rw [hsplit, List.pairwise_append] at hsorted
    refine ⟨⟨mem_sortNames.mp (by simp [hsplit]), hp⟩, ?_⟩
    intro other hother hpother
    have hmem : other ∈ before ++ n :: after := hsplit ▸ mem_sortNames.mpr hother
    rcases List.mem_append.mp hmem with hmem | hmem
    · have hnot := hbefore other hmem
      simp [hpother] at hnot
    · rcases List.mem_cons.mp hmem with rfl | hmem
      · exact le_refl _
      · exact List.rel_of_pairwise_cons hsorted.2.1 hmem
  constructor
  · exact hfirst
  · rintro ⟨⟨hmem, hp⟩, hleast⟩
    cases hfind : (sortNames names).find? p with
    | none => exact absurd hp (List.find?_eq_none.mp hfind name (mem_sortNames.mpr hmem))
    | some n =>
        obtain ⟨⟨hn, hpn⟩, hle⟩ := hfirst hfind
        rw [le_antisymm (hle name hmem hp) (hleast n hn hpn)]

end Coproduct.Tag
